import PostfixRatelimitd.Plan
import PostfixRatelimitd.Redis

/-!
# check_and_record.lua

The script in its three phases: fetch every key once, check every window, record into
every key. Lua numbers are exact for the integers involved, so they are integers
here; `math.floor` of a quotient by a positive size is integer division. A window's
key index stays 0-based throughout, where the script shifts it once.
-/
namespace PostfixRatelimitd

/-- One invocation's arguments. `nowOverride` is never sent outside tests. -/
structure CheckRequest where
  recipientCount : UInt32
  nowOverride : Option ℕ
  plan : CheckPlan

/-- One parsed hash field. -/
structure Bucket where
  id : ℤ
  count : ℤ
  deriving DecidableEq, Repr

/-- The entries of `buckets_by_key` and `min_id_by_key` for one key. -/
structure Snapshot where
  buckets : List Bucket
  minId : Option ℤ
  deriving DecidableEq, Repr

/-- Lua table access; using the nil of a missing element is an error. -/
def luaIndex {α : Type} (table : List α) (i : ℕ) : Script α := fun db =>
  match table[i]? with
  | some x => .ok x db
  | none => .error .nilValue db

def pushField (s : Snapshot) (field : ℤ × ℤ) : Snapshot where
  buckets := s.buckets ++ [⟨field.1, field.2⟩]
  minId :=
    match s.minId with
    | none => some field.1
    | some minId => if field.1 < minId then some field.1 else some minId

def parseFields (fields : List (ℤ × ℤ)) : Snapshot := fields.foldl pushField ⟨[], none⟩

def fetchBuckets (clock : Clock) (keys : List String) (numKeys : ℕ) : Script (List Snapshot) :=
  (List.range numKeys).mapM fun i => do
    let key ← luaIndex keys i
    let fields ← hgetall clock key
    pure (parseFields fields)

/-- A bucket counts in full as long as its end has not passed the cutoff. -/
def windowTotal (bucketSize : ℕ) (oldest : ℤ) (recipientCount : ℤ) (buckets : List Bucket) : ℤ :=
  buckets.foldl (fun total entry =>
    if (entry.id + 1) * bucketSize > oldest then total + entry.count else total) recipientCount

/-- Whether every window accepts; the first one that does not ends the check. -/
def checkWindows (plan : CheckPlan) (now recipientCount : ℤ) (snapshots : List Snapshot) :
    List PlannedWindow → Script Bool
  | [] => pure true
  | window :: rest => do
    let snapshot ← luaIndex snapshots window.keyIndex
    let bucketSize ← luaIndex plan.bucketSizes window.keyIndex
    let oldest := now - window.spanSecs
    let total := windowTotal bucketSize oldest recipientCount snapshot.buckets
    if total > window.limit.toNat then pure false
    else checkWindows plan now recipientCount snapshots rest

/-- The ids of the snapshot whose bucket ended at or before the cutoff. -/
def staleIds (bucketSize : ℕ) (oldest : ℤ) (buckets : List Bucket) : List ℤ :=
  (buckets.filter (fun entry => decide ((entry.id + 1) * bucketSize ≤ oldest))).map Bucket.id

def recordKey (clock : Clock) (keys : List String) (plan : CheckPlan) (now recipientCount : ℤ)
    (snapshots : List Snapshot) (i : ℕ) : Script Unit := do
  let bucketSize ← luaIndex plan.bucketSizes i
  let bucket := now / (bucketSize : ℤ)
  let key ← luaIndex keys i
  let _ ← hincrby clock key bucket recipientCount
  let retention ← luaIndex plan.retentionSecs i
  let _ ← expire clock key (retention + bucketSize : ℕ)
  let oldest := now - retention
  let snapshot ← luaIndex snapshots i
  match snapshot.minId with
  | none => pure ()
  | some minId =>
    if (minId + 1) * bucketSize ≤ oldest then
      -- The scan is skipped when even the oldest bucket is not stale.
      let _ ← hdel clock key (staleIds bucketSize oldest snapshot.buckets)
      pure ()
    else pure ()

/-- The instant a request is checked against: the server's, unless overridden. -/
def requestNow (clock : Clock) (request : CheckRequest) : ℤ :=
  match request.nowOverride with
  | some now => now
  | none => (time clock).1

/-- Records only if every window accepts; 1 when it recorded, 0 when it did not. -/
def checkAndRecord (clock : Clock) (keys : List String) (request : CheckRequest) : Script ℤ := do
  let recipientCount : ℤ := request.recipientCount.toNat
  let plan := request.plan
  let numKeys := plan.bucketSizes.length
  let now := requestNow clock request
  let snapshots ← fetchBuckets clock keys numKeys
  let accepted ← checkWindows plan now recipientCount snapshots plan.windows
  if accepted then
    forM (List.range numKeys) (recordKey clock keys plan now recipientCount snapshots)
    pure 1
  else pure 0

end PostfixRatelimitd
