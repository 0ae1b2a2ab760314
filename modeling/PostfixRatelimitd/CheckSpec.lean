import PostfixRatelimitd.CheckAndRecord
import Mathlib.Algebra.Order.Group.Int

/-!
# What one run of the script does

Over a well-formed plan and hashes that are in range the script never fails. It
answers 1 exactly when every window has room, and then every key of the plan holds
its hash grown by the request and rid of what even its longest window has aged out.
Otherwise it answers 0 and touches nothing.
-/
namespace PostfixRatelimitd

/-- The bucket of a hash counts in a window that looks back to `oldest`. -/
def counts (bucketSize : ℕ) (oldest : ℤ) (id : ℤ) : Bool :=
  decide (oldest < (id + 1) * bucketSize)

theorem counts_iff {b : ℕ} {oldest id : ℤ} : counts b oldest id ↔ oldest < (id + 1) * b := by
  simp [counts]

/-- A window that looks back further counts at least as much. -/
theorem counts_mono {b : ℕ} {oldest oldest' : ℤ} (h : oldest ≤ oldest') {id : ℤ}
    (hc : counts b oldest' id) : counts b oldest id := by
  rw [counts_iff] at hc ⊢
  exact h.trans_lt hc

section Phases
variable (h : Hash)

theorem foldl_pushField_buckets (fields : List (ℤ × ℤ)) (s : Snapshot) :
    (fields.foldl pushField s).buckets = s.buckets ++ fields.map (fun f => ⟨f.1, f.2⟩) := by
  induction fields generalizing s with
  | nil => simp
  | cons f fields ih =>
    rw [List.foldl_cons, ih]
    simp [pushField]

theorem parseFields_buckets (fields : List (ℤ × ℤ)) :
    (parseFields fields).buckets = fields.map (fun f => ⟨f.1, f.2⟩) := by
  simpa [parseFields] using foldl_pushField_buckets fields ⟨[], none⟩

/-- The running minimum: nothing before the first field, afterwards a least id. -/
theorem foldl_pushField_minId (fields : List (ℤ × ℤ)) (s : Snapshot) :
    match (fields.foldl pushField s).minId with
    | none => s.minId = none ∧ fields = []
    | some m => (s.minId = some m ∨ m ∈ fields.map Prod.fst) ∧
        (∀ k, s.minId = some k → m ≤ k) ∧ ∀ id ∈ fields.map Prod.fst, m ≤ id := by
  induction fields generalizing s with
  | nil => cases hs : s.minId <;> simp [hs]
  | cons f fields ih =>
    have hih := ih (pushField s f)
    rw [List.foldl_cons]
    cases hm : (fields.foldl pushField (pushField s f)).minId with
    | none =>
      rw [hm] at hih
      have hpush := hih.1
      cases hs : s.minId with
      | none => simp [pushField, hs] at hpush
      | some k =>
        simp only [pushField, hs] at hpush
        split_ifs at hpush
    | some m =>
      rw [hm] at hih
      obtain ⟨hfrom, hle, hall⟩ := hih
      have hpush : (pushField s f).minId = some f.1 ∧ (∀ k, s.minId = some k → f.1 ≤ k) ∨
          ∃ k, s.minId = some k ∧ (pushField s f).minId = some k ∧ k ≤ f.1 := by
        cases hs : s.minId with
        | none => exact .inl ⟨by simp [pushField, hs], by simp⟩
        | some k =>
          by_cases hlt : f.1 < k
          · exact .inl ⟨by simp [pushField, hs, hlt], by simp; omega⟩
          · exact .inr ⟨k, rfl, by simp [pushField, hs, hlt], by omega⟩
      simp only [List.map_cons, List.mem_cons, forall_eq_or_imp]
      rcases hpush with ⟨hnew, hold⟩ | ⟨k, hs, hnew, hkf⟩
      · have hmf : m ≤ f.1 := hle _ hnew
        refine ⟨?_, fun k hk => hmf.trans (hold k hk), hmf, hall⟩
        rcases hfrom with hfrom | hfrom
        · exact .inr (.inl (Option.some.inj (hnew.symm.trans hfrom)).symm)
        · exact .inr (.inr hfrom)
      · have hmk : m ≤ k := hle _ hnew
        refine ⟨?_, ?_, hmk.trans hkf, hall⟩
        · rcases hfrom with hfrom | hfrom
          · exact .inl (hs.trans (hnew.symm.trans hfrom))
          · exact .inr (.inr hfrom)
        · intro k' hk'
          obtain rfl : k = k' := Option.some.inj (hs.symm.trans hk')
          exact hmk

theorem windowTotal_parseFields (b : ℕ) (oldest r : ℤ) :
    windowTotal b oldest r (parseFields h.entries).buckets =
      r + h.sumOver (counts b oldest) := by
  rw [parseFields_buckets]
  unfold windowTotal Tally.sumOver
  generalize h.entries = entries
  induction entries generalizing r with
  | nil => simp
  | cons entry entries ih =>
    simp only [List.map_cons, List.foldl_cons, volume_cons, ih]
    by_cases hc : oldest < (entry.1 + 1) * b
    · simp [counts, hc, add_assoc]
    · simp [counts, hc]

/-- The ids the script would delete. -/
theorem mem_staleIds {b : ℕ} {oldest id : ℤ} :
    id ∈ staleIds b oldest (parseFields h.entries).buckets ↔
      id ∈ h.entries.map Prod.fst ∧ counts b oldest id = false := by
  simp only [staleIds, parseFields_buckets, counts, List.mem_map, List.mem_filter,
    decide_eq_true_eq, decide_eq_false_iff_not, not_lt]
  constructor
  · rintro ⟨_, ⟨⟨f, hf, rfl⟩, hle⟩, rfl⟩
    exact ⟨⟨f, hf, rfl⟩, hle⟩
  · rintro ⟨⟨f, hf, rfl⟩, hle⟩
    exact ⟨_, ⟨⟨f, hf, rfl⟩, hle⟩, rfl⟩

theorem staleIds_length_le (b : ℕ) (oldest : ℤ) :
    (staleIds b oldest (parseFields h.entries).buckets).length ≤ h.entries.length := by
  rw [staleIds, parseFields_buckets, List.length_map]
  exact (List.length_filter_le _ _).trans (List.length_map _).le

/-- The min-id shortcut: skipping the scan is right, and scanning finds something. -/
theorem staleIds_of_minId (b : ℕ) (oldest : ℤ) :
    match (parseFields h.entries).minId with
    | none => staleIds b oldest (parseFields h.entries).buckets = []
    | some m => (m + 1) * b ≤ oldest ↔ staleIds b oldest (parseFields h.entries).buckets ≠ [] := by
  have hmin := foldl_pushField_minId h.entries ⟨[], none⟩
  change match (parseFields h.entries).minId with
    | none => _
    | some m => _ at hmin
  cases hm : (parseFields h.entries).minId with
  | none =>
    rw [hm] at hmin
    simp [staleIds, parseFields_buckets, hmin.2]
  | some m =>
    rw [hm] at hmin
    obtain ⟨hmem, _, hle⟩ := hmin
    have hmem : m ∈ h.entries.map Prod.fst := by simpa using hmem
    constructor
    · intro hstale
      have hin : m ∈ staleIds b oldest (parseFields h.entries).buckets :=
        (mem_staleIds h).mpr ⟨hmem, by simp [counts]; exact hstale⟩
      exact List.ne_nil_of_mem hin
    · intro hne
      obtain ⟨id, hid⟩ := List.exists_mem_of_ne_nil _ hne
      obtain ⟨hin, hstale⟩ := (mem_staleIds h).mp hid
      have hmid : m ≤ id := hle id hin
      have hend : (id + 1) * (b : ℤ) ≤ oldest := by simpa [counts] using hstale
      have hmul : (m + 1) * (b : ℤ) ≤ (id + 1) * b :=
        mul_le_mul_of_nonneg_right (by omega) (by omega)
      omega

end Phases

/-- What an accepted request leaves in the hash of one key. -/
def recorded (now recipientCount : ℤ) (b r : ℕ) (h : Hash) : Hash :=
  (h.add (now / (b : ℤ)) recipientCount).erase
    (staleIds b (now - r) (parseFields h.entries).buckets)

/-- The bucket being written ends in the future. -/
theorem counts_current {b : ℕ} (hb : 0 < b) (now : ℤ) (r : ℕ) :
    counts b (now - r) (now / (b : ℤ)) := by
  have hend : now < (now / (b : ℤ) + 1) * b := Int.lt_ediv_add_one_mul_self now (by omega)
  rw [counts_iff]
  omega

/-- A sum over the recorded hash is the one over its unexpired buckets, plus the new
recipients where their bucket is selected. -/
theorem sumOver_recorded {b : ℕ} (hb : 0 < b) (now recipientCount : ℤ) (r : ℕ) (h : Hash)
    (pick : ℤ → Bool) :
    (recorded now recipientCount b r h).sumOver pick =
      h.sumOver (fun id => counts b (now - r) id && pick id) +
        if pick (now / (b : ℤ)) then recipientCount else 0 := by
  have hold : h.sumOver (fun id =>
      decide (id ∉ staleIds b (now - r) (parseFields h.entries).buckets) && pick id) =
      h.sumOver (fun id => counts b (now - r) id && pick id) := by
    apply Tally.sumOver_congr
    intro entry hentry
    have hid : entry.1 ∈ h.entries.map Prod.fst := List.mem_map_of_mem hentry
    cases hc : counts b (now - r) entry.1 <;> simp [mem_staleIds, hid, hc]
  have hnew : now / (b : ℤ) ∉ staleIds b (now - r) (parseFields h.entries).buckets := by
    intro hmem
    have hstale := ((mem_staleIds h).mp hmem).2
    rw [counts_current hb now r] at hstale
    exact Bool.noConfusion hstale
  unfold recorded
  rw [Tally.sumOver_erase, Tally.sumOver_add, hold]
  simp [hnew]

/-- The written bucket is never among the deleted ones. -/
theorem recorded_ne_nil {b : ℕ} (hb : 0 < b) (now recipientCount : ℤ) (r : ℕ) (h : Hash) :
    (recorded now recipientCount b r h).entries ≠ [] := by
  have hin : now / (b : ℤ) ∈ (h.add (now / (b : ℤ)) recipientCount).entries.map Prod.fst := by
    show _ ∈ (addEntry _ _ _).map Prod.fst
    rw [addEntry_indices]
    split
    · assumption
    · simp
  obtain ⟨entry, hentry, hid⟩ := List.mem_map.mp hin
  have hkept : entry ∈ (recorded now recipientCount b r h).entries := by
    apply List.mem_filter.mpr
    refine ⟨hentry, ?_⟩
    have hc := counts_current hb now r
    simp [mem_staleIds, hid, hc]
  exact List.ne_nil_of_mem hkept

/-- Ids and counts are not negative and the counts fit into 32 bits together. -/
structure Sane (h : Hash) : Prop where
  ids : ∀ entry ∈ h.entries, 0 ≤ entry.1
  counts : ∀ entry ∈ h.entries, 0 ≤ entry.2
  total : h.sumOver (fun _ => true) ≤ 4294967295

theorem sane_empty : Sane .empty := ⟨by simp, by simp, by simp⟩

theorem Sane.count_le {h : Hash} (hs : Sane h) : ∀ entry ∈ h.entries, entry.2 ≤ 4294967295 := by
  intro entry hentry
  exact (Tally.le_sumOver hs.counts entry hentry).trans hs.total

/-- Any bucket of a hash in range can grow by any request. -/
theorem Sane.incr_bounds {h : Hash} (hs : Sane h) (id : ℤ) {recipientCount : ℤ}
    (hcount : 0 ≤ recipientCount ∧ recipientCount ≤ 4294967295) :
    0 ≤ (h.find? id).getD 0 + recipientCount ∧
      (h.find? id).getD 0 + recipientCount ≤ i64Max := by
  have hfound := Tally.find?_getD_bounds hs.counts id
  have htotal := hs.total
  unfold i64Max
  constructor
  · omega
  · omega

/-- A recorded hash is in range when what it keeps leaves room for the request. -/
theorem Sane.recorded {now recipientCount : ℤ} {b r : ℕ} {h : Hash} (hs : Sane h) (hb : 0 < b)
    (hnow : 0 ≤ now) (hcount : 0 ≤ recipientCount)
    (hfit : h.sumOver (PostfixRatelimitd.counts b (now - r)) + recipientCount ≤ 4294967295) :
    Sane (recorded now recipientCount b r h) where
  ids := by
    have hbucket : 0 ≤ now / (b : ℤ) := Int.ediv_nonneg hnow (Int.natCast_nonneg _)
    apply Tally.forall_erase (P := fun id _ => 0 ≤ id)
    exact Tally.forall_add (P := fun id _ => 0 ≤ id) hs.ids hbucket (fun _ hid => hid)
  counts := by
    apply Tally.forall_erase (P := fun _ n => 0 ≤ n)
    exact Tally.forall_add (P := fun _ n => 0 ≤ n) hs.counts hcount
      (fun n hn => add_nonneg hn hcount)
  total := by
    rw [sumOver_recorded hb]
    simpa only [Bool.and_true, if_true] using hfit

theorem run_luaIndex {α : Type} {table : List α} {i : ℕ} {x : α} (h : table[i]? = some x)
    (db : Db) : (luaIndex table i).run db = .ok x db := by
  show luaIndex table i db = _
  simp only [luaIndex, h]

section RecordKey
variable {clock : Clock} {keys : List String} {plan : CheckPlan} {snapshots : List Snapshot}
variable {now recipientCount : ℤ} {db : Db} {i b r : ℕ} {key : String}

/-- Recording into one key replaces its cell by the recorded hash with a fresh expiry. -/
theorem run_recordKey (now : ℤ) (hslot : plan.slots[i]? = some (b, r)) (hkey : keys[i]? = some key)
    (hsnap : snapshots[i]? = some (parseFields (db.view clock key).entries))
    (hb : 0 < b) (hshort : b ≤ 53568 ∧ r ≤ 2678400) (hsane : Sane (db.view clock key))
    (hcount : 0 ≤ recipientCount ∧ recipientCount ≤ 4294967295) :
    (recordKey clock keys plan now recipientCount snapshots i).run db =
      .ok () (db.write key (some ⟨recorded now recipientCount b r (db.view clock key),
        some (clock.millis + 1000 * (r + b))⟩)) := by
  obtain ⟨hsize, hret⟩ := CheckPlan.slots_getElem?.mp hslot
  obtain ⟨hlow, hhigh⟩ := hsane.incr_bounds (now / (b : ℤ)) hcount
  have hincr := run_hincrby clock key (now / (b : ℤ)) recipientCount db
    (le_trans (by decide) hlow) hhigh
  generalize hgrown : (db.view clock key).add (now / (b : ℤ)) recipientCount = grown at hincr
  have hread1 : (db.write key (some ⟨grown, (db.read clock.millis key).bind Cell.deadline⟩)).read
      clock.millis key = some ⟨grown, (db.read clock.millis key).bind Cell.deadline⟩ :=
    Keyspace.read_write_live db key (Keyspace.live_of_read db clock.millis key grown)
  have hexp := run_expire (r + b) (by omega) (by omega) hread1
  rw [Keyspace.write_write] at hexp
  have hread2 : (db.write key (some ⟨grown, some (clock.millis + 1000 * (r + b))⟩)).read
      clock.millis key = some ⟨grown, some (clock.millis + 1000 * (r + b))⟩ := by
    apply Keyspace.read_write_live
    simp [Cell.expired]
  have hshort := staleIds_of_minId (db.view clock key) b (now - r)
  simp only [recordKey, EStateM.run_bind, run_luaIndex hsize, run_luaIndex hkey, hincr,
    run_luaIndex hret, hexp, run_luaIndex hsnap]
  unfold recorded
  rw [hgrown]
  cases hmin : (parseFields (db.view clock key).entries).minId with
  | none =>
    rw [hmin] at hshort
    simp only at hshort
    rw [hshort, Tally.erase_nil]
    rfl
  | some m =>
    rw [hmin] at hshort
    simp only at hshort ⊢
    by_cases hstale : (m + 1) * (b : ℤ) ≤ now - r
    · have hsome := hshort.mp hstale
      have hleft := recorded_ne_nil hb now recipientCount r (db.view clock key)
      unfold recorded at hleft
      rw [hgrown] at hleft
      rw [if_pos hstale, EStateM.run_bind, run_hdel hsome hread2 hleft, Keyspace.write_write]
      rfl
    · have hnone : staleIds b (now - r) (parseFields (db.view clock key).entries).buckets = [] := by
        by_contra hne
        exact hstale (hshort.mpr hne)
      rw [if_neg hstale, hnone, Tally.erase_nil]
      rfl

end RecordKey

/-- Reading the database in a loop leaves it alone and collects what each turn reads. -/
theorem run_mapM_read {α β : Type} {f : α → Script β} {g : α → β} {xs : List α} {db : Db}
    (h : ∀ x ∈ xs, (f x).run db = .ok (g x) db) : (xs.mapM f).run db = .ok (xs.map g) db := by
  induction xs with
  | nil => rfl
  | cons x xs ih =>
    obtain ⟨hx, hxs⟩ := List.forall_mem_cons.mp h
    simp only [List.mapM_cons, EStateM.run_bind, hx, ih hxs, EStateM.run_pure, List.map_cons]

section Run
variable {key : ℕ → String} {clock : Clock} {plan : CheckPlan} {db : Db}
variable {snapshots : List Snapshot} {now recipientCount : ℤ}

/-- The snapshots hold the parsed hash of every key of the plan. -/
def Fetched (key : ℕ → String) (clock : Clock) (plan : CheckPlan) (db : Db)
    (snapshots : List Snapshot) : Prop :=
  ∀ i b : ℕ, plan.bucketSizes[i]? = some b →
    snapshots[i]? = some (parseFields (db.view clock (key b)).entries)

theorem run_fetchBuckets (key : ℕ → String) (clock : Clock) (plan : CheckPlan) (db : Db) :
    ∃ snapshots, (fetchBuckets clock (plan.bucketSizes.map key) plan.bucketSizes.length).run db =
      .ok snapshots db ∧ Fetched key clock plan db snapshots := by
  let g : ℕ → Snapshot := fun i =>
    parseFields (db.view clock (((plan.bucketSizes.map key)[i]?).getD "")).entries
  refine ⟨(List.range plan.bucketSizes.length).map g, ?_, ?_⟩
  · apply run_mapM_read
    intro i hi
    have hlt : i < plan.bucketSizes.length := List.mem_range.mp hi
    have hkey : (plan.bucketSizes.map key)[i]? = some (key plan.bucketSizes[i]) := by
      simp [hlt]
    simp only [EStateM.run_bind, run_luaIndex hkey, run_hgetall, EStateM.run_pure, g, hkey,
      Option.getD_some]
  · intro i b hb
    obtain ⟨hlt, rfl⟩ := List.getElem?_eq_some_iff.mp hb
    simp [g, hlt]

/-- Every window has room for the request. -/
def Room (key : ℕ → String) (clock : Clock) (plan : CheckPlan) (db : Db)
    (now recipientCount : ℤ) : Prop :=
  ∀ p ∈ plan.windows, ∀ b r, plan.slots[p.keyIndex]? = some (b, r) →
    recipientCount + (db.view clock (key b)).sumOver (counts b (now - p.spanSecs)) ≤ p.limit.toNat

/-- The longest window of a key was checked as well. -/
theorem Room.fits (hroom : Room key clock plan db now recipientCount) (hplan : plan.WellFormed)
    {b r : ℕ} (hslot : (b, r) ∈ plan.slots) :
    (db.view clock (key b)).sumOver (counts b (now - r)) + recipientCount ≤ 4294967295 := by
  obtain ⟨i, hi⟩ := List.mem_iff_getElem?.mp hslot
  obtain ⟨q, hq, hqi, hspan⟩ := hplan.longest i b r hi
  have hfit := hroom q hq b r (hqi ▸ hi)
  rw [hspan] at hfit
  have hlimit := q.limit.toNat_lt
  omega

theorem run_checkWindows (hf : Fetched key clock plan db snapshots) (now recipientCount : ℤ)
    (windows : List PlannedWindow)
    (hserved : ∀ p ∈ windows, ∃ b r, plan.slots[p.keyIndex]? = some (b, r)) :
    ∃ accepted, (checkWindows plan now recipientCount snapshots windows).run db =
        .ok accepted db ∧
      (accepted = true ↔ ∀ p ∈ windows, ∀ b r, plan.slots[p.keyIndex]? = some (b, r) →
        recipientCount + (db.view clock (key b)).sumOver (counts b (now - p.spanSecs)) ≤
          p.limit.toNat) := by
  induction windows with
  | nil => exact ⟨true, rfl, by simp⟩
  | cons p rest ih =>
    obtain ⟨⟨b, r, hslot⟩, hrest⟩ := List.forall_mem_cons.mp hserved
    obtain ⟨accepted, hrun, hiff⟩ := ih hrest
    have hsize := (CheckPlan.slots_getElem?.mp hslot).1
    have hhead : (∀ b' r', plan.slots[p.keyIndex]? = some (b', r') →
        recipientCount + (db.view clock (key b')).sumOver (counts b' (now - p.spanSecs)) ≤
          p.limit.toNat) ↔
        recipientCount + (db.view clock (key b)).sumOver (counts b (now - p.spanSecs)) ≤
          p.limit.toNat := by
      simp [hslot]
    simp only [checkWindows, EStateM.run_bind, run_luaIndex (hf _ _ hsize), run_luaIndex hsize,
      windowTotal_parseFields, List.forall_mem_cons, hhead]
    by_cases hover : recipientCount + (db.view clock (key b)).sumOver
        (counts b (now - p.spanSecs)) > p.limit.toNat
    · refine ⟨false, by rw [if_pos hover]; rfl, ?_⟩
      have hno : ¬(recipientCount + (db.view clock (key b)).sumOver
          (counts b (now - p.spanSecs)) ≤ p.limit.toNat) := not_le.mpr hover
      simp [hno]
    · refine ⟨accepted, by rw [if_neg hover]; exact hrun, ?_⟩
      rw [hiff]
      exact ⟨fun h => ⟨not_lt.mp hover, h⟩, fun h => h.2⟩

/-- The cell an accepted request leaves under the key of bucket size `b`. -/
def recordedCell (key : ℕ → String) (clock : Clock) (db : Db) (now recipientCount : ℤ)
    (b r : ℕ) : Cell Hash ℕ :=
  ⟨recorded now recipientCount b r (db.view clock (key b)), some (clock.millis + 1000 * (r + b))⟩

/-- The record loop handles each key on its own: keys still to come are untouched by
the turns before them. -/
theorem run_recordKeys (now : ℤ) (hkey : Function.Injective key) (hplan : plan.WellFormed)
    (hcount : 0 ≤ recipientCount ∧ recipientCount ≤ 4294967295) (indices : List ℕ)
    (hnodup : indices.Nodup) (db : Db)
    (hready : ∀ i ∈ indices, ∃ b r, plan.slots[i]? = some (b, r) ∧
      snapshots[i]? = some (parseFields (db.view clock (key b)).entries) ∧
      Sane (db.view clock (key b))) :
    ∃ db', (forM indices (recordKey clock (plan.bucketSizes.map key) plan now recipientCount
        snapshots)).run db = .ok () db' ∧
      (∀ i ∈ indices, ∀ b r, plan.slots[i]? = some (b, r) →
        db' (key b) = some (recordedCell key clock db now recipientCount b r)) ∧
      ∀ k, (∀ i ∈ indices, ∀ b r, plan.slots[i]? = some (b, r) → k ≠ key b) → db' k = db k := by
  induction indices generalizing db with
  | nil => exact ⟨db, rfl, by simp, fun _ _ => rfl⟩
  | cons i rest ih =>
    obtain ⟨hi, hrestNodup⟩ := List.nodup_cons.mp hnodup
    obtain ⟨⟨b, r, hslot, hsnap, hsane⟩, hrest⟩ := List.forall_mem_cons.mp hready
    have hsize := (CheckPlan.slots_getElem?.mp hslot).1
    have hkeyAt : (plan.bucketSizes.map key)[i]? = some (key b) := by simp [hsize]
    have hrun := run_recordKey now hslot hkeyAt hsnap
      (plan.bucketSizes_pos b (List.mem_of_getElem? hsize))
      (hplan.shortLived b r (List.mem_of_getElem? hslot)) hsane hcount
    -- Another index carries another bucket size, hence another key.
    have hother : ∀ j ∈ rest, ∀ b' r', plan.slots[j]? = some (b', r') → key b' ≠ key b := by
      intro j hj b' r' hslot' hsame
      have hsize' := (CheckPlan.slots_getElem?.mp hslot').1
      obtain ⟨hlt, _⟩ := List.getElem?_eq_some_iff.mp hsize'
      rw [hkey hsame] at hsize'
      have hji : j = i := (List.getElem?_inj hlt hplan.nodup).mp (hsize'.trans hsize.symm)
      exact hi (hji ▸ hj)
    let db1 : Db := db.write (key b) (some (recordedCell key clock db now recipientCount b r))
    have hview : ∀ j ∈ rest, ∀ b' r', plan.slots[j]? = some (b', r') →
        db1.view clock (key b') = db.view clock (key b') := by
      intro j hj b' r' hslot'
      exact Db.view_congr (Keyspace.write_of_ne db (hother j hj b' r' hslot') _) clock
    have hready' : ∀ j ∈ rest, ∃ b' r', plan.slots[j]? = some (b', r') ∧
        snapshots[j]? = some (parseFields (db1.view clock (key b')).entries) ∧
        Sane (db1.view clock (key b')) := by
      intro j hj
      obtain ⟨b', r', hslot', hsnap', hsane'⟩ := hrest j hj
      rw [← hview j hj b' r' hslot'] at hsnap' hsane'
      exact ⟨b', r', hslot', hsnap', hsane'⟩
    obtain ⟨db', hrun', hdone, hframe⟩ := ih hrestNodup db1 hready'
    refine ⟨db', ?_, ?_, ?_⟩
    · rw [List.forM_cons, EStateM.run_bind, hrun]
      exact hrun'
    · intro j hj b' r' hslot'
      rcases List.mem_cons.mp hj with rfl | hj
      · obtain ⟨rfl, rfl⟩ : b = b' ∧ r = r' := by
          simpa using hslot.symm.trans hslot'
        rw [hframe (key b) (fun j hj b' r' h => (hother j hj b' r' h).symm)]
        exact Keyspace.write_self db (key b) _
      · rw [hdone j hj b' r' hslot']
        unfold recordedCell
        rw [hview j hj b' r' hslot']
    · intro k hk
      rw [hframe k (fun j hj => hk j (List.mem_cons_of_mem _ hj))]
      exact Keyspace.write_of_ne db (hk i List.mem_cons_self b r hslot) _

/-- The whole script. -/
theorem run_checkAndRecord (clock : Clock) (db : Db) (hkey : Function.Injective key)
    (request : CheckRequest)
    (hplan : request.plan.WellFormed)
    (hsane : ∀ b ∈ request.plan.bucketSizes, Sane (db.view clock (key b))) :
    (Room key clock request.plan db (requestNow clock request) request.recipientCount.toNat ∧
      ∃ db', (checkAndRecord clock (request.plan.bucketSizes.map key) request).run db =
          .ok 1 db' ∧
        (∀ b r, (b, r) ∈ request.plan.slots → db' (key b) = some (recordedCell key clock db
          (requestNow clock request) request.recipientCount.toNat b r)) ∧
        ∀ k, (∀ b ∈ request.plan.bucketSizes, k ≠ key b) → db' k = db k) ∨
    (¬Room key clock request.plan db (requestNow clock request) request.recipientCount.toNat ∧
      (checkAndRecord clock (request.plan.bucketSizes.map key) request).run db = .ok 0 db) := by
  obtain ⟨count, override, plan⟩ := request
  simp only at hplan hsane ⊢
  generalize hnow : requestNow clock ⟨count, override, plan⟩ = now
  have hcount : (0 : ℤ) ≤ count.toNat ∧ (count.toNat : ℤ) ≤ 4294967295 := by
    have := count.toNat_lt
    omega
  obtain ⟨snapshots, hfetch, hf⟩ := run_fetchBuckets key clock plan db
  obtain ⟨accepted, hcheck, hiff⟩ := run_checkWindows hf now count.toNat plan.windows
    (fun p hp => by
      obtain ⟨b, r, h, _⟩ := hplan.served p hp
      exact ⟨b, r, h⟩)
  have hready : ∀ i ∈ List.range plan.bucketSizes.length, ∃ b r, plan.slots[i]? = some (b, r) ∧
      snapshots[i]? = some (parseFields (db.view clock (key b)).entries) ∧
      Sane (db.view clock (key b)) := by
    intro i hi
    have hlt : i < plan.bucketSizes.length := List.mem_range.mp hi
    have hlt' : i < plan.retentionSecs.length := by rw [hplan.parallel]; exact hlt
    have hsize : plan.bucketSizes[i]? = some plan.bucketSizes[i] := List.getElem?_eq_getElem hlt
    exact ⟨_, _, CheckPlan.slots_getElem?.mpr ⟨hsize, List.getElem?_eq_getElem hlt'⟩, hf i _ hsize,
      hsane _ (List.getElem_mem hlt)⟩
  obtain ⟨db', hrecord, hdone, hframe⟩ := run_recordKeys now hkey hplan hcount
    (List.range plan.bucketSizes.length) List.nodup_range db hready
  have hrun : (checkAndRecord clock (plan.bucketSizes.map key) ⟨count, override, plan⟩).run db =
      if accepted then .ok 1 db' else .ok 0 db := by
    unfold checkAndRecord
    simp only [hnow, EStateM.run_bind, hfetch, hcheck]
    cases accepted
    · rfl
    · simp only [if_true, EStateM.run_bind, hrecord, EStateM.run_pure]
  cases accepted with
  | true =>
    refine .inl ⟨hiff.mp rfl, db', hrun, ?_, ?_⟩
    · intro b r hbr
      obtain ⟨i, hi⟩ := List.mem_iff_getElem?.mp hbr
      obtain ⟨hlt, _⟩ := List.getElem?_eq_some_iff.mp (CheckPlan.slots_getElem?.mp hi).1
      exact hdone i (List.mem_range.mpr hlt) b r hi
    · intro k hk
      apply hframe
      intro i _ b r hslot
      exact hk b (List.mem_of_getElem? (CheckPlan.slots_getElem?.mp hslot).1)
  | false =>
    exact .inr ⟨fun hroom => Bool.noConfusion (hiff.mpr hroom), hrun⟩

end Run

end PostfixRatelimitd
