import PostfixRatelimitd.PlanChanges
import PostfixRatelimitd.SlidingWindow

/-!
# The status query

The query asks for the time and then reads the plan's keys one by one; checks may run
between any two of its commands. It adds up unsigned machine integers where the script
adds up Lua numbers. On the hashes that checks leave behind nothing wraps around, so
both count alike, and what it reports lies between what enforcement would count and
what was accepted.
-/
namespace PostfixRatelimitd

/-- One window's live status. -/
structure WindowStatus where
  spanSecs : ℕ
  limit : UInt32
  currentTotal : UInt32
  deriving DecidableEq, Repr

inductive StatusResponse
  | unrestricted (unrestricted : Bool)
  | limited (computedAt : ℕ) (windows : List WindowStatus)
  deriving DecidableEq, Repr

/-- Why a query ends without a response. -/
inductive StatusError
  /-- a command or its reply was lost -/
  | connection
  /-- a hash field is no u64 or its value no u32 -/
  | unexpectedReturnType
  /-- an index is out of range -/
  | panicked
  deriving DecidableEq, Repr

/-- One field of a HGETALL reply, parsed. -/
def parseField (field : ℤ × ℤ) : Option (ℕ × UInt32) :=
  if 0 ≤ field.1 ∧ field.1 < 2 ^ 64 ∧ 0 ≤ field.2 ∧ field.2 < 2 ^ 32 then
    some (field.1.toNat, UInt32.ofNat field.2.toNat)
  else none

/-- 64-bit unsigned arithmetic. -/
def wrapU64 (n : ℕ) : ℕ := n % 2 ^ 64

/-- A bucket counts in full as long as its end has not passed the cutoff. -/
def inWindow (bucketSize oldest : ℕ) (field : ℕ × UInt32) : Bool :=
  decide (wrapU64 (wrapU64 (field.1 + 1) * bucketSize) > oldest)

def currentTotal (bucketSize oldest : ℕ) (fields : List (ℕ × UInt32)) : UInt32 :=
  ((fields.filter (inWindow bucketSize oldest)).map Prod.snd).foldl (· + ·) 0

def windowStatus (plan : CheckPlan) (now : ℕ) (bucketsByKey : List (List (ℕ × UInt32)))
    (window : PlannedWindow) : Except StatusError WindowStatus :=
  match plan.bucketSizes[window.keyIndex]?, bucketsByKey[window.keyIndex]? with
  | some bucketSize, some fields =>
    let oldest := now - window.spanSecs
    .ok ⟨window.spanSecs, window.limit, currentTotal bucketSize oldest fields⟩
  | _, _ => .error .panicked

/-- How far a query has come. -/
inductive QueryState
  | start
  /-- the time is known and some keys are read -/
  | reading (now : ℕ) (bucketsByKey : List (List (ℕ × UInt32)))
  | failed (e : StatusError)
  deriving DecidableEq, Repr

namespace QueryState
variable (keyPrefix saslUsername : String) (plan : CheckPlan)

/-- The next command of the query: TIME, and then one HGETALL for each bucket size. -/
def step (clock : Clock) (db : Db) : QueryState → QueryState
  | start => reading (time clock).1 []
  | reading now bucketsByKey =>
    match plan.bucketSizes[bucketsByKey.length]? with
    | none => reading now bucketsByKey
    | some bucketSize =>
      match (db.view clock (saslKey keyPrefix saslUsername bucketSize)).entries.mapM parseField with
      | some fields => reading now (bucketsByKey ++ [fields])
      | none => failed .unexpectedReturnType
  | failed e => failed e

/-- The response, once every key is read. -/
def response : QueryState → Option (Except StatusError StatusResponse)
  | start => none
  | reading now bucketsByKey =>
    if bucketsByKey.length = plan.bucketSizes.length then
      some ((plan.windows.mapM (windowStatus plan now bucketsByKey)).map (.limited now))
    else none
  | failed e => some (.error e)

end QueryState

/-- The status of `saslUsername` against `plan`, when the whole query runs at one instant. -/
def computeSaslStatus (keyPrefix saslUsername : String) (plan : CheckPlan) (clock : Clock)
    (db : Db) : Option (Except StatusError StatusResponse) :=
  if plan.bucketSizes.isEmpty then some (.ok (.unrestricted true))
  else
    (Nat.iterate (QueryState.step keyPrefix saslUsername plan clock db)
      (plan.bucketSizes.length + 1) .start).response plan

/-! ## What the query makes of a hash -/

/-- A loop whose every turn is a pure value. -/
theorem mapM_eq_pure {m : Type → Type} [Monad m] [LawfulMonad m] {α β : Type} {f : α → m β}
    {g : α → β} {xs : List α} (h : ∀ x ∈ xs, f x = pure (g x)) : xs.mapM f = pure (xs.map g) := by
  induction xs with
  | nil => rfl
  | cons x xs ih =>
    obtain ⟨hx, hxs⟩ := List.forall_mem_cons.mp h
    rw [List.mapM_cons, hx, ih hxs, pure_bind, pure_bind, List.map_cons]

/-- A hash on which the query's arithmetic is exact. -/
structure Readable (b : ℕ) (h : Hash) : Prop where
  sane : Sane h
  ends : ∀ entry ∈ h.entries, (entry.1 + 1) * b < 2 ^ 64

/-- A field of a readable hash as the query holds it. -/
def parsed (field : ℤ × ℤ) : ℕ × UInt32 := (field.1.toNat, UInt32.ofNat field.2.toNat)

namespace Readable
variable {b : ℕ} {h : Hash}

theorem count_lt (hr : Readable b h) : ∀ entry ∈ h.entries, entry.2 < 2 ^ 32 := by
  intro entry hentry
  have hle := hr.sane.count_le entry hentry
  omega

theorem id_lt (hr : Readable b h) (hb : 0 < b) : ∀ entry ∈ h.entries, entry.1 < 2 ^ 64 := by
  intro entry hentry
  have hid := hr.sane.ids entry hentry
  have hend := hr.ends entry hentry
  have hle : (entry.1 + 1) * 1 ≤ (entry.1 + 1) * b := by
    apply mul_le_mul_of_nonneg_left
    · omega
    · omega
  omega

theorem end_parsed (hr : Readable b h) :
    ∀ entry ∈ h.entries, ((parsed entry).1 + 1) * b < 2 ^ 64 := by
  intro entry hentry
  have hend := hr.ends entry hentry
  have hcast : ((((parsed entry).1 + 1) * b : ℕ) : ℤ) = (entry.1 + 1) * b := by
    unfold parsed
    push_cast
    rw [Int.toNat_of_nonneg (hr.sane.ids entry hentry)]
  omega

theorem parse (hr : Readable b h) (hb : 0 < b) :
    h.entries.mapM parseField = some (h.entries.map parsed) := by
  apply mapM_eq_pure (m := Option)
  intro entry hentry
  have hid := hr.sane.ids entry hentry
  have hcount := hr.sane.counts entry hentry
  exact if_pos ⟨hid, hr.id_lt hb entry hentry, hcount, hr.count_lt entry hentry⟩

end Readable

/-- Adding up machine integers that do not overflow. -/
theorem foldl_add_toNat (xs : List UInt32) (acc : UInt32)
    (hsmall : acc.toNat + (xs.map UInt32.toNat).sum < 2 ^ 32) :
    (xs.foldl (· + ·) acc).toNat = acc.toNat + (xs.map UInt32.toNat).sum := by
  induction xs generalizing acc with
  | nil => rfl
  | cons x xs ih =>
    rw [List.map_cons, List.sum_cons] at hsmall ⊢
    have hhead : (acc + x).toNat = acc.toNat + x.toNat := by
      rw [UInt32.toNat_add]
      exact Nat.mod_eq_of_lt (by omega)
    rw [List.foldl_cons, ih (acc + x) (by omega), hhead, add_assoc]

/-- Cut off at zero or not, and in machine arithmetic or not, the same buckets count. -/
theorem inWindow_parsed {b : ℕ} (now span : ℕ) {entry : ℤ × ℤ} (hb : 0 < b) (hid : 0 ≤ entry.1)
    (hend : (entry.1 + 1) * b < 2 ^ 64) :
    inWindow b (now - span) (parsed entry) = counts b ((now : ℤ) - span) entry.1 := by
  obtain ⟨id, hid'⟩ := Int.eq_ofNat_of_zero_le hid
  have hparsed : (parsed entry).1 = id := by simp [parsed, hid']
  rw [hid'] at hend
  have hmul : (id + 1) * b < 2 ^ 64 := by exact_mod_cast hend
  have hsucc : id + 1 < 2 ^ 64 := (Nat.le_mul_of_pos_right _ hb).trans_lt hmul
  have hpos : 0 < (id + 1) * b := Nat.mul_pos (Nat.succ_pos id) hb
  have hcast : ((id : ℤ) + 1) * b = (((id + 1) * b : ℕ) : ℤ) := by push_cast; rfl
  unfold inWindow wrapU64 counts
  rw [hparsed, Nat.mod_eq_of_lt hsucc, Nat.mod_eq_of_lt hmul, hid', hcast, decide_eq_decide]
  generalize (id + 1) * b = bucketEnd at hpos
  omega

/-- The parsed counts of a selection of buckets, added up. -/
theorem sum_parsed {b : ℕ} {h : Hash} (hr : Readable b h) (select : ℕ × UInt32 → Bool)
    (pick : ℤ → Bool) (hselect : ∀ entry ∈ h.entries, select (parsed entry) = pick entry.1) :
    (((((h.entries.map parsed).filter select).map (fun field => field.2.toNat)).sum : ℕ) : ℤ) =
      h.sumOver pick := by
  have hcounts := hr.sane.counts
  have hlt := hr.count_lt
  unfold Tally.sumOver
  generalize h.entries = entries at hselect hcounts hlt
  induction entries with
  | nil => rfl
  | cons entry rest ih =>
    obtain ⟨hpick, hselect⟩ := List.forall_mem_cons.mp hselect
    obtain ⟨hcount, hcounts⟩ := List.forall_mem_cons.mp hcounts
    obtain ⟨hsmall, hlt⟩ := List.forall_mem_cons.mp hlt
    have hrest := ih hselect hcounts hlt
    have hvalue : ((parsed entry).2.toNat : ℤ) = entry.2 := by
      unfold parsed
      rw [UInt32.toNat_ofNat', Nat.mod_eq_of_lt (by omega)]
      omega
    rw [List.map_cons, volume_cons, List.filter_cons, hpick]
    cases hc : pick entry.1 with
    | true => simp only [if_true, List.map_cons, List.sum_cons, Nat.cast_add, hrest, hvalue]
    | false => simpa using hrest

/-- The parsed counts of the buckets in a window, added up. -/
theorem sum_inWindow {b : ℕ} {h : Hash} (hr : Readable b h) (hb : 0 < b) (now span : ℕ) :
    (((((h.entries.map parsed).filter (inWindow b (now - span))).map (fun field =>
      field.2.toNat)).sum : ℕ) : ℤ) = h.sumOver (counts b ((now : ℤ) - span)) :=
  sum_parsed hr _ _ fun entry hentry =>
    inWindow_parsed now span hb (hr.sane.ids entry hentry) (hr.ends entry hentry)

/-- On a readable hash the query adds up what the script would. -/
theorem currentTotal_eq {b : ℕ} {h : Hash} (hr : Readable b h) (hb : 0 < b) (now span : ℕ) :
    ((currentTotal b (now - span) (h.entries.map parsed)).toNat : ℤ) =
      h.sumOver (counts b ((now : ℤ) - span)) := by
  have hsum := sum_inWindow hr hb now span
  have hle : h.sumOver (counts b ((now : ℤ) - span)) ≤ h.sumOver (fun _ => true) :=
    Tally.sumOver_mono hr.sane.counts (fun _ _ => rfl)
  have htotal := hr.sane.total
  have hzero : (0 : UInt32).toNat = 0 := rfl
  unfold currentTotal
  rw [foldl_add_toNat]
  · rw [List.map_map, hzero, zero_add]
    exact hsum
  · rw [List.map_map, hzero, zero_add]
    show (((h.entries.map parsed).filter (inWindow b (now - span))).map (fun field =>
      field.2.toNat)).sum < 2 ^ 32
    omega

/-- Every hash that a sender's checks leave behind is readable. -/
theorem Tracks.view_readable {p u : String} {db : Db} {log : List Check} (ht : Tracks p u db log)
    {b : ℕ} (hb : 0 < b) (hsmall : b ≤ 53568) (clock : Clock) :
    Readable b (db.view clock (saslKey p u b)) where
  sane := ht.view_sane b clock
  ends entry hentry := by
    obtain ⟨e, _, hid⟩ := ht.view_origin b clock entry hentry
    have hfloor : e.now / (b : ℤ) * b ≤ e.now := Int.ediv_mul_le e.now (by omega)
    have hsecs := e.clock.secs_lt
    rw [← hid]
    unfold Check.bucket
    rw [add_mul, one_mul]
    unfold Check.now at hfloor ⊢
    omega

section Response
variable {p u : String} {plan : CheckPlan} {now : ℕ} {bucketsByKey : List (List (ℕ × UInt32))}

/-- What a completed query reports for a planned window. -/
def reported (plan : CheckPlan) (now : ℕ) (bucketsByKey : List (List (ℕ × UInt32)))
    (window : PlannedWindow) : WindowStatus where
  spanSecs := window.spanSecs
  limit := window.limit
  currentTotal := currentTotal ((plan.bucketSizes[window.keyIndex]?).getD 0)
    (now - window.spanSecs) ((bucketsByKey[window.keyIndex]?).getD [])

theorem reported_total {window : PlannedWindow} {b : ℕ} {h : Hash}
    (hsize : plan.bucketSizes[window.keyIndex]? = some b)
    (hfields : bucketsByKey[window.keyIndex]? = some (h.entries.map parsed)) (hr : Readable b h) :
    ((reported plan now bucketsByKey window).currentTotal.toNat : ℤ) =
      h.sumOver (counts b ((now : ℤ) - window.spanSecs)) := by
  unfold reported
  rw [hsize, hfields, Option.getD_some, Option.getD_some]
  exact currentTotal_eq hr (plan.bucketSizes_pos b (List.mem_of_getElem? hsize)) now _

/-- With every key read no index is out of range. -/
theorem response_reading (hplan : plan.WellFormed)
    (hread : bucketsByKey.length = plan.bucketSizes.length) :
    (QueryState.reading now bucketsByKey).response plan =
      some (.ok (.limited now (plan.windows.map (reported plan now bucketsByKey)))) := by
  have hwindows : plan.windows.mapM (windowStatus plan now bucketsByKey) =
      .ok (plan.windows.map (reported plan now bucketsByKey)) := by
    apply mapM_eq_pure (m := Except StatusError)
    intro window hwindow
    obtain ⟨b, r, hslot, _⟩ := hplan.served window hwindow
    have hsize := (CheckPlan.slots_getElem?.mp hslot).1
    obtain ⟨hlt, _⟩ := List.getElem?_eq_some_iff.mp hsize
    have hfields := List.getElem?_eq_getElem (l := bucketsByKey) (i := window.keyIndex) (by omega)
    unfold windowStatus reported
    rw [hsize, hfields]
    rfl
  simp only [QueryState.response, if_pos hread, hwindows]
  rfl

/-- One HGETALL of a key that checks have left behind. -/
theorem step_reading {clock : Clock} {db : Db} {b : ℕ}
    (hsize : plan.bucketSizes[bucketsByKey.length]? = some b)
    (hread : Readable b (db.view clock (saslKey p u b))) :
    QueryState.step p u plan clock db (.reading now bucketsByKey) =
      .reading now (bucketsByKey ++ [(db.view clock (saslKey p u b)).entries.map parsed]) := by
  have hb := plan.bucketSizes_pos b (List.mem_of_getElem? hsize)
  unfold QueryState.step
  simp only [hsize, hread.parse hb]

end Response

/-- The sizes of a well-formed plan are small enough to be read. -/
theorem Tracks.plan_readable {p u : String} {db : Db} {log : List Check} {plan : CheckPlan}
    (ht : Tracks p u db log) (hplan : plan.WellFormed) (clock : Clock) :
    ∀ b ∈ plan.bucketSizes, Readable b (db.view clock (saslKey p u b)) := by
  intro b hb
  obtain ⟨r, hslot⟩ := hplan.slot_of_size hb
  exact ht.view_readable (plan.bucketSizes_pos b hb) (hplan.shortLived b r hslot).1 clock

/-! ## A query that nothing interrupts -/

/-- All keys of a plan, read at one instant. -/
def readAt (p u : String) (plan : CheckPlan) (clock : Clock) (db : Db) : List (List (ℕ × UInt32)) :=
  plan.bucketSizes.map (fun b => (db.view clock (saslKey p u b)).entries.map parsed)

section Alone
variable {p u : String} {plan : CheckPlan} {clock : Clock} {db : Db}

theorem iterate_step (hread : ∀ b ∈ plan.bucketSizes, Readable b (db.view clock (saslKey p u b)))
    {k : ℕ} (hk : k ≤ plan.bucketSizes.length) :
    Nat.iterate (QueryState.step p u plan clock db) (k + 1) .start =
      .reading clock.secs ((plan.bucketSizes.take k).map
        (fun b => (db.view clock (saslKey p u b)).entries.map parsed)) := by
  induction k with
  | zero => rfl
  | succ k ih =>
    have hlt : k < plan.bucketSizes.length := by omega
    have hsize := List.getElem?_eq_getElem hlt
    have hread' := hread _ (List.getElem_mem hlt)
    rw [Function.iterate_succ_apply', ih (by omega),
      step_reading (b := plan.bucketSizes[k]) (by simp [Nat.min_eq_left hlt.le]) hread',
      List.take_add_one, hsize, List.map_append]
    rfl

theorem computeSaslStatus_eq (hplan : plan.WellFormed) (hkeys : plan.bucketSizes ≠ [])
    (hread : ∀ b ∈ plan.bucketSizes, Readable b (db.view clock (saslKey p u b))) :
    computeSaslStatus p u plan clock db = some (.ok (.limited clock.secs (plan.windows.map
      (reported plan clock.secs (readAt p u plan clock db))))) := by
  have hsome : ¬(plan.bucketSizes.isEmpty = true) := by simpa using hkeys
  unfold computeSaslStatus
  rw [if_neg hsome, iterate_step hread le_rfl, List.take_length, response_reading hplan (by simp)]
  rfl

/-- What each planned window is reported to hold is what its key counts. -/
theorem reported_alone (hread : ∀ b ∈ plan.bucketSizes, Readable b (db.view clock (saslKey p u b)))
    {window : PlannedWindow} {b : ℕ} (hsize : plan.bucketSizes[window.keyIndex]? = some b) :
    ((reported plan clock.secs (readAt p u plan clock db) window).currentTotal.toNat : ℤ) =
      (db.view clock (saslKey p u b)).sumOver (counts b ((clock.secs : ℤ) - window.spanSecs)) := by
  apply reported_total hsize
  · unfold readAt
    rw [List.getElem?_map, hsize]
    rfl
  · exact hread b (List.mem_of_getElem? hsize)

/-- The script has room for a request exactly when what is reported leaves room for it. -/
theorem room_iff_reported (hplan : plan.WellFormed)
    (hread : ∀ b ∈ plan.bucketSizes, Readable b (db.view clock (saslKey p u b))) (n : UInt32) :
    Room (saslKey p u) clock plan db clock.secs n.toNat ↔
      ∀ window ∈ plan.windows, (reported plan clock.secs
        (readAt p u plan clock db) window).currentTotal.toNat + n.toNat ≤ window.limit.toNat := by
  apply forall₂_congr
  intro window hwindow
  obtain ⟨b, r, hslot, _⟩ := hplan.served window hwindow
  have htotal := reported_alone hread (CheckPlan.slots_getElem?.mp hslot).1
  constructor
  · intro hfits
    have hfit := hfits b r hslot
    omega
  · intro hfit b' r' hslot'
    obtain ⟨rfl, rfl⟩ : b = b' ∧ r = r' := by simpa using hslot.symm.trans hslot'
    omega

/-- Under one plan no reported total is above its limit. -/
theorem reported_le_limit {windows : List Window} {checks : List Check}
    (h : UnderOnePlan windows checks) (hlater : ∀ c ∈ checks, c.clock ≤ clock)
    {window : PlannedWindow} (hwindow : window ∈ (CheckPlan.new windows).windows) :
    (reported (CheckPlan.new windows) clock.secs (readAt p u (CheckPlan.new windows) clock
      (Session.serveAll p u checks).db) window).currentTotal.toNat ≤ window.limit.toNat := by
  have hplan := CheckPlan.new_wellFormed windows h.valid
  have ht := Session.serveAll_tracks (p := p) (u := u) h.orderly
  have hpast : ∀ e ∈ (Session.serveAll p u checks).accepted, e.clock ≤ clock :=
    fun e he => hlater e (Session.mem_of_accepted he)
  obtain ⟨b, r, hslot, _⟩ := hplan.served window hwindow
  have htotal := reported_alone (ht.plan_readable hplan clock) (CheckPlan.slots_getElem?.mp hslot).1
  obtain ⟨w, hw, hspan, hlimit⟩ := (CheckPlan.new_represents windows).origin window hwindow
  have hcounted := planned_counted h.valid ht h.accepted_plan hpast hwindow hspan hslot
  have hle := reaches_le_limit h (p := p) (u := u) hw
    (fun e he => Int.ofNat_le.mpr (Clock.secs_mono (hpast e he)))
  rw [hlimit]
  omega

end Alone

/-- When no check runs during it, the query reports for every window the total by which
the script decides, whatever plans the checks before it came with. If it was one plan all
along, no total is above its limit. -/
theorem status_agrees_with_enforcement (ruleIndex : ℕ) (windows : List Window)
    (hvalid : validateWindows ruleIndex windows = .ok ()) (p u : String) (checks : List Check)
    (hplans : ∀ c ∈ checks, c.plan.Built)
    (hclocks : checks.Pairwise (fun earlier later => earlier.clock ≤ later.clock)) (clock : Clock)
    (hlater : ∀ c ∈ checks, c.clock ≤ clock) :
    let plan := CheckPlan.new windows
    let db := (Session.serveAll p u checks).db
    ∃ statuses, computeSaslStatus p u plan clock db = some (.ok (.limited clock.secs statuses)) ∧
      List.Forall₂ (fun window status => status.spanSecs = window.spanSecs ∧
        status.limit = window.limit) plan.windows statuses ∧
      (∀ recipientCount : UInt32,
        (∃ db', (checkAndRecord clock (plan.bucketSizes.map (saslKey p u))
          ⟨recipientCount, none, plan⟩).run db = .ok 1 db') ↔
        ∀ status ∈ statuses,
          status.currentTotal.toNat + recipientCount.toNat ≤ status.limit.toNat) ∧
      ((∀ c ∈ checks, c.plan = plan) →
        ∀ status ∈ statuses, status.currentTotal.toNat ≤ status.limit.toNat) := by
  intro plan db
  obtain ⟨hsome, hwindows⟩ := (validateWindows_ok_iff _ _).mp hvalid
  have hplan : plan.WellFormed := CheckPlan.new_wellFormed windows hwindows
  have horderly : Session.Orderly checks := ⟨fun c hc => (hplans c hc).wellFormed, hclocks⟩
  have ht : Tracks p u db (Session.serveAll p u checks).accepted := Session.serveAll_tracks horderly
  have hread := ht.plan_readable hplan clock
  obtain ⟨w, hw⟩ := List.exists_mem_of_ne_nil windows hsome
  refine ⟨_, computeSaslStatus_eq hplan (CheckPlan.new_bucketSizes_ne_nil hw) hread, ?_, ?_, ?_⟩
  · rw [List.forall₂_map_right_iff, List.forall₂_same]
    exact fun window _ => ⟨rfl, rfl⟩
  · intro n
    have hspec := run_checkAndRecord clock db (saslKey_injective p u)
      ⟨n, none, plan⟩ hplan (fun b hb => (hread b hb).sane)
    rw [List.forall_mem_map]
    refine Iff.trans ?_ (room_iff_reported hplan hread n)
    rcases hspec with ⟨hyes, db', hrun, _⟩ | ⟨hno, hrun⟩
    · exact ⟨fun _ => hyes, fun _ => ⟨db', hrun⟩⟩
    · constructor
      · rintro ⟨db', hok⟩
        rw [hok] at hrun
        cases hrun
      · exact fun hyes => absurd hyes hno
  · intro hsame
    have h : UnderOnePlan windows checks := ⟨hwindows, hsame, hclocks⟩
    rw [List.forall_mem_map]
    exact fun window hwindow => reported_le_limit h hlater hwindow

/-- Under a lower limit than before, the total shown is above it and leaves no room. Under the
same plan it is not. -/
theorem status_agrees_with_enforcement_minute :
    let before := CheckPlan.new [⟨3, .fromSecs 60⟩]
    let plan := CheckPlan.new [⟨1, .fromSecs 60⟩]
    let db := (Session.serveAll "postfix-ratelimitd" "alice" [⟨⟨0, by decide⟩, 2, before⟩]).db
    let clock : Clock := ⟨30000000, by decide⟩
    computeSaslStatus "postfix-ratelimitd" "alice" plan clock db =
        some (.ok (.limited clock.secs [⟨60, 1, 2⟩])) ∧
      (∀ recipientCount : UInt32,
        (∃ db', (checkAndRecord clock (plan.bucketSizes.map (saslKey "postfix-ratelimitd" "alice"))
          ⟨recipientCount, none, plan⟩).run db = .ok 1 db') ↔ 2 + recipientCount.toNat ≤ 1) ∧
      ∃ statuses, computeSaslStatus "postfix-ratelimitd" "alice" before clock db =
          some (.ok (.limited clock.secs statuses)) ∧
        ∀ status ∈ statuses, status.currentTotal.toNat ≤ status.limit.toNat := by
  intro before plan db clock
  have hbefore : before.Built := .inr ⟨0, _, by decide, rfl⟩
  have hshown : computeSaslStatus "postfix-ratelimitd" "alice" plan clock db =
      some (.ok (.limited clock.secs [⟨60, 1, 2⟩])) := by decide +kernel
  obtain ⟨statuses, hstatus, _, hdecides, _⟩ := status_agrees_with_enforcement 0
    [⟨1, .fromSecs 60⟩] (by decide) "postfix-ratelimitd" "alice" [⟨⟨0, by decide⟩, 2, before⟩]
    (by simp [hbefore]) (by simp) clock (by simp [clock, Clock.le_iff])
  obtain ⟨unchanged, hbound, _, _, hlimit⟩ := status_agrees_with_enforcement 0
    [⟨3, .fromSecs 60⟩] (by decide) "postfix-ratelimitd" "alice" [⟨⟨0, by decide⟩, 2, before⟩]
    (by simp [hbefore]) (by simp) clock (by simp [clock, Clock.le_iff])
  obtain rfl : statuses = [⟨60, 1, 2⟩] := by
    have hsame := hstatus.symm.trans hshown
    simpa using hsame
  refine ⟨hshown, ?_, unchanged, hbound, hlimit (by simp [before])⟩
  intro n
  refine (hdecides n).trans ?_
  rw [List.forall_mem_singleton]
  rfl

/-! ## A query among checks -/

/-- What reaches the server while a query runs, in its order. -/
inductive StatusEvent
  | check (c : Check)
  /-- the next command of the query -/
  | query (clock : Clock)

namespace StatusEvent

def clock : StatusEvent → Clock
  | check c => c.clock
  | query clock => clock

def check? : StatusEvent → Option Check
  | check c => some c
  | query _ => none

def isQuery : StatusEvent → Bool
  | check _ => false
  | query _ => true

end StatusEvent

/-- The checks served so far, and how far the query has come. -/
structure Race where
  session : Session
  query : QueryState

section Race
variable (p u : String) (plan : CheckPlan)

def Race.step (race : Race) : StatusEvent → Race
  | .check c => { race with session := race.session.serve p u c }
  | .query clock => { race with query := race.query.step p u plan clock race.session.db }

def raceOf (events : List StatusEvent) : Race := events.foldl (Race.step p u plan) ⟨.start, .start⟩

variable {p u plan} {events : List StatusEvent}

theorem raceOf_snoc (e : StatusEvent) :
    raceOf p u plan (events ++ [e]) = (raceOf p u plan events).step p u plan e := by
  simp [raceOf]

/-- The query changes nothing for the checks. -/
theorem raceOf_session : (raceOf p u plan events).session =
    Session.serveAll p u (events.filterMap StatusEvent.check?) := by
  induction events using List.reverseRecOn with
  | nil => rfl
  | append_singleton events e ih =>
    rw [raceOf_snoc, List.filterMap_append]
    cases e with
    | check c =>
      have hlast : [StatusEvent.check c].filterMap StatusEvent.check? = [c] := rfl
      rw [hlast, Session.serveAll_snoc, ← ih]
      rfl
    | query clock =>
      have hlast : [StatusEvent.query clock].filterMap StatusEvent.check? = [] := rfl
      rw [hlast, List.append_nil, ← ih]
      rfl

/-- The key at index `k` was read with result `fields`, at the clock `t1` and on the
database of that moment. -/
def ReadAt (p u : String) (plan : CheckPlan) (events : List StatusEvent) (now k : ℕ)
    (fields : List (ℕ × UInt32)) : Prop :=
  ∃ before t1 after b, events = before ++ .query t1 :: after ∧
    (∃ earlier, (raceOf p u plan before).query = .reading now earlier ∧ earlier.length = k) ∧
    now ≤ t1.secs ∧ plan.bucketSizes[k]? = some b ∧
    fields = ((raceOf p u plan before).session.db.view t1 (saslKey p u b)).entries.map parsed

theorem ReadAt.snoc {now k : ℕ} {fields : List (ℕ × UInt32)}
    (h : ReadAt p u plan events now k fields) (e : StatusEvent) :
    ReadAt p u plan (events ++ [e]) now k fields := by
  obtain ⟨before, t1, after, b, rfl, hrest⟩ := h
  exact ⟨before, t1, after ++ [e], b, by simp, hrest⟩

/-- How far the query has come after `events`, and where what it holds comes from. -/
def Progress (p u : String) (plan : CheckPlan) (events : List StatusEvent) : Prop :=
  match (raceOf p u plan events).query with
  | .start => events.countP StatusEvent.isQuery = 0
  | .reading now bucketsByKey =>
    bucketsByKey.length = min (events.countP StatusEvent.isQuery - 1) plan.bucketSizes.length ∧
      0 < events.countP StatusEvent.isQuery ∧ (∃ e ∈ events, e.clock.secs = now) ∧
      ∀ k fields, bucketsByKey[k]? = some fields → ReadAt p u plan events now k fields
  | .failed _ => False

/-- A check leaves what the query holds as it is. -/
theorem Progress.check (h : Progress p u plan events) (c : Check) :
    Progress p u plan (events ++ [.check c]) := by
  have hquery : (raceOf p u plan (events ++ [.check c])).query =
      (raceOf p u plan events).query := by
    rw [raceOf_snoc]
    rfl
  have hcount : [StatusEvent.check c].countP StatusEvent.isQuery = 0 := rfl
  unfold Progress at h ⊢
  rw [hquery, List.countP_append, hcount, add_zero]
  cases hq : (raceOf p u plan events).query with
  | start => rw [hq] at h; exact h
  | failed e => rw [hq] at h; exact h
  | reading now bucketsByKey =>
    rw [hq] at h
    obtain ⟨hlength, hpos, ⟨x, hx, hsecs⟩, hread⟩ := h
    refine ⟨hlength, hpos, ⟨x, List.mem_append_left _ hx, hsecs⟩, ?_⟩
    intro k fields hk
    exact (hread k fields hk).snoc _

/-- Checks under one plan and commands of one query, in server order. -/
structure UnderOnePlanRace (windows : List Window) (events : List StatusEvent) : Prop where
  valid : ∀ w ∈ windows, w.Valid
  plans : ∀ c, .check c ∈ events → c.plan = CheckPlan.new windows
  clocks : events.Pairwise (fun earlier later => earlier.clock ≤ later.clock)

namespace UnderOnePlanRace
variable {windows : List Window} {e : StatusEvent}

theorem init (h : UnderOnePlanRace windows (events ++ [e])) : UnderOnePlanRace windows events where
  valid := h.valid
  plans c hc := h.plans c (List.mem_append_left _ hc)
  clocks := (List.pairwise_append.mp h.clocks).1

theorem last (h : UnderOnePlanRace windows (events ++ [e])) : ∀ x ∈ events, x.clock ≤ e.clock := by
  intro x hx
  exact (List.pairwise_append.mp h.clocks).2.2 x hx e (by simp)

theorem before {before after : List StatusEvent} (h : UnderOnePlanRace windows (before ++ after)) :
    UnderOnePlanRace windows before where
  valid := h.valid
  plans c hc := h.plans c (List.mem_append_left _ hc)
  clocks := (List.pairwise_append.mp h.clocks).1

theorem checks (h : UnderOnePlanRace windows events) :
    UnderOnePlan windows (events.filterMap StatusEvent.check?) where
  valid := h.valid
  plans c hc := by
    obtain ⟨x, hx, hcheck⟩ := List.mem_filterMap.mp hc
    cases x with
    | check c' =>
      obtain rfl : c' = c := Option.some.inj hcheck
      exact h.plans c' hx
    | query clock => cases hcheck
  clocks := by
    apply h.clocks.filterMap
    intro x y hle c hc c' hc'
    cases x with
    | query clock => cases hc
    | check d =>
      cases y with
      | query clock => cases hc'
      | check d' =>
        obtain rfl : d = c := Option.some.inj hc
        obtain rfl : d' = c' := Option.some.inj hc'
        exact hle

theorem tracks (h : UnderOnePlanRace windows events) (p u : String) (plan : CheckPlan) :
    Tracks p u (raceOf p u plan events).session.db (raceOf p u plan events).session.accepted := by
  rw [raceOf_session]
  exact Session.serveAll_tracks h.checks.orderly

/-- Checks accepted so far ran no later than the next event. -/
theorem accepted_before (h : UnderOnePlanRace windows (events ++ [e])) (p u : String)
    (plan : CheckPlan) : ∀ c ∈ (raceOf p u plan events).session.accepted, c.clock ≤ e.clock := by
  intro c hc
  rw [raceOf_session] at hc
  obtain ⟨x, hx, hcheck⟩ := List.mem_filterMap.mp (Session.mem_of_accepted hc)
  have hle := h.last x hx
  cases x with
  | check c' =>
    obtain rfl : c' = c := Option.some.inj hcheck
    exact hle
  | query clock => cases hcheck

/-- One more command of the query. -/
theorem progress_query {t : Clock} (h : UnderOnePlanRace windows (events ++ [.query t]))
    (hbefore : Progress p u (CheckPlan.new windows) events) :
    Progress p u (CheckPlan.new windows) (events ++ [.query t]) := by
  have hplan := CheckPlan.new_wellFormed windows h.valid
  have hcount : [StatusEvent.query t].countP StatusEvent.isQuery = 1 := rfl
  unfold Progress at hbefore ⊢
  rw [raceOf_snoc, List.countP_append, hcount]
  show match (raceOf p u (CheckPlan.new windows) events).query.step p u (CheckPlan.new windows) t
      (raceOf p u (CheckPlan.new windows) events).session.db with
    | .start => _ | .reading _ _ => _ | .failed _ => _
  cases hq : (raceOf p u (CheckPlan.new windows) events).query with
  | start =>
    rw [hq] at hbefore
    exact ⟨by simp only [hbefore]; simp, by omega, ⟨.query t, by simp, rfl⟩, by simp⟩
  | failed e => rw [hq] at hbefore; exact hbefore.elim
  | reading now bucketsByKey =>
    rw [hq] at hbefore
    obtain ⟨hlength, hpos, ⟨x, hx, hsecs⟩, hread⟩ := hbefore
    cases hsize : (CheckPlan.new windows).bucketSizes[bucketsByKey.length]? with
    | none =>
      have hdone := List.getElem?_eq_none_iff.mp hsize
      simp only [QueryState.step, hsize]
      exact ⟨by omega, by omega, ⟨x, List.mem_append_left _ hx, hsecs⟩,
        fun k fields hk => (hread k fields hk).snoc _⟩
    | some b =>
      obtain ⟨hlt, _⟩ := List.getElem?_eq_some_iff.mp hsize
      have hreadable := (h.init.tracks p u (CheckPlan.new windows)).plan_readable hplan t b
        (List.mem_of_getElem? hsize)
      rw [step_reading hsize hreadable]
      refine ⟨by rw [List.length_append, List.length_singleton]; omega, by omega,
        ⟨x, List.mem_append_left _ hx, hsecs⟩, ?_⟩
      intro k fields hk
      rcases lt_or_ge k bucketsByKey.length with hold | hnew
      · rw [List.getElem?_append_left hold] at hk
        exact (hread k fields hk).snoc _
      · obtain rfl : k = bucketsByKey.length := by
          obtain ⟨hk', _⟩ := List.getElem?_eq_some_iff.mp hk
          rw [List.length_append, List.length_singleton] at hk'
          omega
        rw [List.getElem?_concat_length, Option.some.injEq] at hk
        have hnow : now ≤ t.secs := hsecs ▸ Clock.secs_mono (h.last x hx)
        exact ⟨events, t, [], b, rfl, ⟨bucketsByKey, hq, rfl⟩, hnow, hsize, hk.symm⟩

theorem progress (h : UnderOnePlanRace windows events) (p u : String) :
    Progress p u (CheckPlan.new windows) events := by
  induction events using List.reverseRecOn with
  | nil => rfl
  | append_singleton events e ih =>
    have hbefore := ih h.init
    cases e with
    | check c => exact hbefore.check c
    | query t => exact h.progress_query hbefore

end UnderOnePlanRace

end Race

/-- The buckets of a hash that end inside a window which ends at `now` hold at most what
was accepted no earlier than a bucket before it. -/
theorem Tracks.view_le_recent {p u : String} {db : Db} {log : List Check} (ht : Tracks p u db log)
    {clock : Clock} (hpast : ∀ e ∈ log, e.clock ≤ clock) {b : ℕ} (hb : 0 < b) (now : ℤ) (span : ℕ) :
    (db.view clock (saslKey p u b)).sumOver (counts b (now - span)) ≤ volume Check.count
      (fun e => decide (now - span - b < e.now ∧ e.now ≤ clock.secs)) log := by
  apply (ht.upper b clock hpast _).trans
  apply volume_mono (fun e _ => e.count_nonneg)
  intro e he hcounts
  have hend := counts_iff.mp (Bool.and_eq_true_iff.mp hcounts).2
  have hfloor : e.now / (b : ℤ) * b ≤ e.now := Int.ediv_mul_le e.now (by omega)
  have hlate : e.now ≤ clock.secs := Int.ofNat_le.mpr (Clock.secs_mono (hpast e he))
  unfold Check.bucket at hend
  rw [add_mul, one_mul] at hend
  exact decide_eq_true ⟨by omega, hlate⟩

/-- What a query reports although checks run between its commands: for every window at
least what the script would count when the window's key was read, and at most what was
accepted up to then no earlier than a bucket before the window that ends with the
query's own time. -/
theorem racing_query_bounds (ruleIndex : ℕ) (windows : List Window)
    (hvalid : validateWindows ruleIndex windows = .ok ()) (p u : String)
    (events : List StatusEvent) (hplans : ∀ c, .check c ∈ events → c.plan = CheckPlan.new windows)
    (hclocks : events.Pairwise (fun earlier later => earlier.clock ≤ later.clock))
    (hdone : (CheckPlan.new windows).bucketSizes.length < events.countP StatusEvent.isQuery) :
    let plan := CheckPlan.new windows
    ∃ t0 statuses, (raceOf p u plan events).query.response plan =
        some (.ok (.limited t0 statuses)) ∧
      List.Forall₂ (fun window status =>
        status.spanSecs = window.spanSecs ∧ status.limit = window.limit ∧
        ∃ before t1 after b, events = before ++ .query t1 :: after ∧
          (∃ earlier, (raceOf p u plan before).query = .reading t0 earlier ∧
            earlier.length = window.keyIndex) ∧
          plan.bucketSizes[window.keyIndex]? = some b ∧
          windowTotal b ((t1.secs : ℤ) - window.spanSecs) 0 (parseFields
            ((raceOf p u plan before).session.db.view t1 (saslKey p u b)).entries).buckets ≤
              status.currentTotal.toNat ∧
          (status.currentTotal.toNat : ℤ) ≤ volume Check.count
            (fun e => decide ((t0 : ℤ) - window.spanSecs - b < e.now ∧ e.now ≤ t1.secs))
              (raceOf p u plan before).session.accepted) plan.windows statuses := by
  intro plan
  have hwindows := ((validateWindows_ok_iff _ _).mp hvalid).2
  have h : UnderOnePlanRace windows events := ⟨hwindows, hplans, hclocks⟩
  have hplan : plan.WellFormed := CheckPlan.new_wellFormed windows hwindows
  have hprogress := h.progress p u
  unfold Progress at hprogress
  cases hq : (raceOf p u plan events).query with
  | start => rw [hq] at hprogress; omega
  | failed e => rw [hq] at hprogress; exact hprogress.elim
  | reading t0 bucketsByKey =>
    rw [hq] at hprogress
    obtain ⟨hlength, _, _, hread⟩ := hprogress
    have hall : bucketsByKey.length = plan.bucketSizes.length := by
      rw [hlength]
      exact Nat.min_eq_right (by omega)
    refine ⟨t0, _, response_reading hplan hall, ?_⟩
    rw [List.forall₂_map_right_iff, List.forall₂_same]
    intro window hwindow
    refine ⟨rfl, rfl, ?_⟩
    obtain ⟨b, r, hslot, _⟩ := hplan.served window hwindow
    have hsize := (CheckPlan.slots_getElem?.mp hslot).1
    obtain ⟨hlt, _⟩ := List.getElem?_eq_some_iff.mp hsize
    have hfields := List.getElem?_eq_getElem (l := bucketsByKey) (i := window.keyIndex) (by omega)
    obtain ⟨before, t1, after, b', rfl, hearlier, htime, hsize', heq⟩ := hread _ _ hfields
    obtain rfl : b' = b := Option.some.inj (hsize'.symm.trans hsize)
    have hb := plan.bucketSizes_pos b' (List.mem_of_getElem? hsize)
    -- The hash as it was when its key was read.
    have hthen : UnderOnePlanRace windows (before ++ [.query t1]) := by
      apply UnderOnePlanRace.before
      rw [List.append_assoc]
      exact h
    have ht := hthen.init.tracks p u plan
    have hpast := hthen.accepted_before p u plan
    rw [heq] at hfields
    have htotal : ((reported plan t0 bucketsByKey window).currentTotal.toNat : ℤ) = _ :=
      reported_total hsize hfields
      (ht.plan_readable hplan t1 b' (List.mem_of_getElem? hsize))
    refine ⟨before, t1, after, b', rfl, hearlier, hsize, ?_, ?_⟩
    · rw [windowTotal_parseFields, zero_add, htotal]
      apply Tally.sumOver_mono (ht.view_sane b' t1).counts
      intro id hid
      exact counts_mono (by omega) hid
    · rw [htotal]
      exact ht.view_le_recent hpast hb t0 window.spanSecs

/-- A check accepted between the two commands of a query is in the total. -/
theorem racing_query_bounds_minute :
    let plan := CheckPlan.new [⟨3, .fromSecs 60⟩]
    let events : List StatusEvent := [.check ⟨⟨0, by decide⟩, 1, plan⟩, .query ⟨1000000, by decide⟩,
      .check ⟨⟨2000000, by decide⟩, 1, plan⟩, .query ⟨3000000, by decide⟩]
    let race := raceOf "postfix-ratelimitd" "alice" plan
    (race events).query.response plan = some (.ok (.limited 1 [⟨60, 3, 2⟩])) ∧
      ∃ before t1 after b, events = before ++ .query t1 :: after ∧ plan.bucketSizes[0]? = some b ∧
        windowTotal b ((t1.secs : ℤ) - 60) 0 (parseFields ((race before).session.db.view t1
          (saslKey "postfix-ratelimitd" "alice" b)).entries).buckets ≤ 2 ∧
        2 ≤ volume Check.count (fun e => decide (1 - 60 - b < e.now ∧ e.now ≤ t1.secs))
          (race before).session.accepted := by
  intro plan events race
  have hshown : (race events).query.response plan = some (.ok (.limited 1 [⟨60, 3, 2⟩])) := by
    decide +kernel
  have hwindows : plan.windows = [⟨0, 60, 3⟩] := by decide +kernel
  obtain ⟨t0, statuses, hresponse, hall⟩ := racing_query_bounds 0 [⟨3, .fromSecs 60⟩] (by decide)
    "postfix-ratelimitd" "alice" events (by simp [events, plan])
    (by simp [events, StatusEvent.clock, Clock.le_iff]) (by decide +kernel)
  obtain ⟨rfl, rfl⟩ : t0 = 1 ∧ statuses = [⟨60, 3, 2⟩] := by
    have hsame := hresponse.symm.trans hshown
    simpa using hsame
  rw [hwindows] at hall
  obtain ⟨_, _, before, t1, after, b, hevents, _, hsize, hlower, hupper⟩ :=
    (List.forall₂_cons.mp hall).1
  exact ⟨hshown, before, t1, after, b, hevents, hsize, hlower, hupper⟩

end PostfixRatelimitd
