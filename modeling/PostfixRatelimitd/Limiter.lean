import PostfixRatelimitd.CheckAndRecord
import Mathlib.Data.List.Basic
import Std.Data.String.ToNat

/-!
# Bucket keys and the limiter

A bucket key joins prefix, type, schema version, identity and bucket size with colons.
Only the identity's value is escaped. Reading a key from its end recovers every part:
in an escaped value each colon follows a backslash, while the colon before the value
follows the kind, which has none.
-/
namespace PostfixRatelimitd

def bucketKeyType : String := "bucket"
def bucketSchemaVersion : String := "v1"
def saslIdentityKind : String := "sasl"

/-- Every occurrence of one character replaced by a text. -/
def replaceChar (value : String) (c : Char) (text : String) : String :=
  String.ofList (value.toList.flatMap (fun x => if x = c then text.toList else [x]))

/-- Backslashes first, so that the backslash put before a colon stays single. -/
def escapeIdentityValue (value : String) : String :=
  if value.toList.any (fun c => c = '\\' ∨ c = ':') then
    replaceChar (replaceChar value '\\' "\\\\") ':' "\\:"
  else value

/-- `kind` must never itself contain a backslash or a colon. -/
def identity (kind value : String) : String := kind ++ ":" ++ escapeIdentityValue value

/-- The only place a bucket key is assembled. -/
def bucketKey (keyPrefix identity : String) (bucketSize : ℕ) : String :=
  keyPrefix ++ ":" ++ bucketKeyType ++ ":" ++ bucketSchemaVersion ++ ":" ++ identity ++ ":" ++
    toString bucketSize

section Escape

/-- Both replacements at once. -/
def escapeChar (c : Char) : List Char :=
  if c = '\\' then ['\\', '\\'] else if c = ':' then ['\\', ':'] else [c]

theorem escapeIdentityValue_toList (value : String) :
    (escapeIdentityValue value).toList = value.toList.flatMap escapeChar := by
  unfold escapeIdentityValue
  split_ifs with h
  · unfold replaceChar
    simp only [String.toList_ofList, List.flatMap_assoc]
    congr 1
    funext c
    unfold escapeChar
    split_ifs with h1 h2
    · decide
    · subst h2
      decide
    · simp [h2]
  · have hplain : ∀ c ∈ value.toList, escapeChar c = [c] := by
      intro c hc
      have hno : ¬(c = '\\' ∨ c = ':') := by
        intro hbad
        exact h (List.any_eq_true.mpr ⟨c, hc, by simpa using hbad⟩)
      rw [not_or] at hno
      simp [escapeChar, hno.1, hno.2]
    generalize value.toList = cs at hplain
    induction cs with
    | nil => rfl
    | cons c cs ih =>
      obtain ⟨hc, hcs⟩ := List.forall_mem_cons.mp hplain
      rw [List.flatMap_cons, hc, ← ih hcs]
      rfl

/-- The images of the characters form a code in which none begins another. -/
theorem escapeChar_append_inj {x y : Char} {xs ys : List Char}
    (h : escapeChar x ++ xs = escapeChar y ++ ys) : x = y ∧ xs = ys := by
  unfold escapeChar at h
  split_ifs at h <;> grind

theorem escapeChar_ne_nil (c : Char) : escapeChar c ≠ [] := by
  unfold escapeChar
  split_ifs <;> simp

theorem flatMap_escapeChar_injective {xs ys : List Char}
    (h : xs.flatMap escapeChar = ys.flatMap escapeChar) : xs = ys := by
  induction xs generalizing ys with
  | nil =>
    cases ys with
    | nil => rfl
    | cons y ys => simp [escapeChar_ne_nil] at h
  | cons x xs ih =>
    cases ys with
    | nil => simp [escapeChar_ne_nil] at h
    | cons y ys =>
      obtain ⟨rfl, htail⟩ := escapeChar_append_inj h
      rw [ih htail]

/-- In an escaped value every colon follows a backslash. -/
theorem colon_after_backslash {value before after : List Char}
    (h : value.flatMap escapeChar = before ++ ':' :: after) : before.getLast? = some '\\' := by
  induction value generalizing before with
  | nil => simp at h
  | cons c cs ih =>
    rw [List.flatMap_cons] at h
    -- One escaped character is one or two long; past it the rest of `before` decides.
    rcases List.append_eq_append_iff.mp h with ⟨m, hbefore, hm⟩ | ⟨m, hchar, hm⟩
    · rw [hbefore, List.getLast?_append, ih hm, Option.some_or]
    · cases m with
      | nil =>
        have hnil : ([] : List Char).getLast? = some '\\' := ih (by simpa using hm.symm)
        simp at hnil
      | cons d m =>
        rw [List.cons_append, List.cons.injEq] at hm
        obtain ⟨rfl, _⟩ := hm
        unfold escapeChar at hchar
        match before with
        | [] => split_ifs at hchar <;> grind
        | [x] => split_ifs at hchar <;> grind
        | x :: y :: before => split_ifs at hchar <;> simp at hchar

end Escape

/-- The last separator is where it is, if none follows it. -/
theorem append_separator_inj {α : Type*} {s : α} {xs xs' ys ys' : List α} (hys : s ∉ ys)
    (hys' : s ∉ ys') (h : xs ++ s :: ys = xs' ++ s :: ys') : xs = xs' ∧ ys = ys' := by
  rcases List.append_eq_append_iff.mp h with ⟨m, hxs, hm⟩ | ⟨m, hxs, hm⟩
  · cases m with
    | nil => exact ⟨by simpa using hxs.symm, by simpa using hm⟩
    | cons c m =>
      rw [List.cons_append, List.cons.injEq] at hm
      exact absurd (by rw [hm.2]; simp) hys
  · cases m with
    | nil => exact ⟨by simpa using hxs, by simpa using hm.symm⟩
    | cons c m =>
      rw [List.cons_append, List.cons.injEq] at hm
      exact absurd (by rw [hm.2]; simp) hys'

/-- An escaped value is split off at the last colon that follows no backslash. -/
theorem append_escaped_inj {xs xs' v v' : List Char} (hxs : xs.getLast? ≠ some '\\')
    (hxs' : xs'.getLast? ≠ some '\\')
    (h : xs ++ ':' :: v.flatMap escapeChar = xs' ++ ':' :: v'.flatMap escapeChar) :
    xs = xs' ∧ v = v' := by
  have key : ∀ {xs xs' v v' m : List Char}, xs'.getLast? ≠ some '\\' → xs' = xs ++ m →
      ':' :: v.flatMap escapeChar = m ++ ':' :: v'.flatMap escapeChar → m = [] := by
    intro xs xs' v v' m hlast hx hm
    cases m with
    | nil => rfl
    | cons c m =>
      rw [List.cons_append, List.cons.injEq] at hm
      have hback := colon_after_backslash hm.2
      cases m with
      | nil => simp at hback
      | cons d m =>
        rw [hx] at hlast
        exact absurd (by simpa [List.getLast?_append] using hback) hlast
  rcases List.append_eq_append_iff.mp h with ⟨m, hx, hm⟩ | ⟨m, hx, hm⟩
  · obtain rfl := key hxs' hx hm
    refine ⟨by simpa using hx.symm, flatMap_escapeChar_injective ?_⟩
    simpa using hm
  · obtain rfl := key hxs hx hm
    refine ⟨by simpa using hx, flatMap_escapeChar_injective ?_⟩
    simpa using hm.symm

theorem colon_notMem_toString (n : ℕ) : ':' ∉ (toString n).toList := by
  intro h
  rw [Nat.toString_eq_repr, Nat.toList_repr] at h
  have hdigit := Nat.isDigit_of_mem_toDigits (by decide) (by decide) h
  simp [Char.isDigit] at hdigit

/-- A key with its separators laid bare, from the one before the size backwards. -/
theorem bucketKey_toList (p k v : String) (n : ℕ) :
    (bucketKey p (identity k v) n).toList =
      (((p.toList ++ (':' :: bucketKeyType.toList ++ ':' :: bucketSchemaVersion.toList)) ++
        ':' :: k.toList) ++ ':' :: v.toList.flatMap escapeChar) ++ ':' :: (toString n).toList := by
  have hcolon : (":" : String).toList = [':'] := rfl
  unfold bucketKey identity
  simp [String.toList_append, escapeIdentityValue_toList, hcolon]

theorem last_before_value {xs k : List Char} (hk : '\\' ∉ k) :
    (xs ++ ':' :: k).getLast? ≠ some '\\' := by
  intro h
  rw [List.getLast?_append, List.getLast?_cons, Option.some_or, Option.some.injEq] at h
  cases hlast : k.getLast? with
  | none => simp [hlast] at h
  | some c =>
    rw [hlast, Option.getD_some] at h
    exact hk (h ▸ List.mem_of_getLast? hlast)

/-- What stands before the size ends with an identity, of which kind and value can be told. -/
theorem append_identity_inj {xs xs' k k' v v' : List Char} (hk : '\\' ∉ k ∧ ':' ∉ k)
    (hk' : '\\' ∉ k' ∧ ':' ∉ k')
    (h : (xs ++ ':' :: k) ++ ':' :: v.flatMap escapeChar =
      (xs' ++ ':' :: k') ++ ':' :: v'.flatMap escapeChar) : xs = xs' ∧ k = k' ∧ v = v' := by
  obtain ⟨hkinds, hvalue⟩ := append_escaped_inj (last_before_value hk.1)
    (last_before_value hk'.1) h
  obtain ⟨hfront, hkind⟩ := append_separator_inj hk.2 hk'.2 hkinds
  exact ⟨hfront, hkind, hvalue⟩

theorem toString_injective : Function.Injective (toString : ℕ → String) := by
  intro n n' h
  rw [Nat.toString_eq_repr, Nat.toString_eq_repr] at h
  exact Nat.repr_injective h

/-- A key ends with its size, and what stands before that is separated as it is built. -/
theorem bucketKey_front {p p' k k' v v' : String} {n n' : ℕ}
    (h : bucketKey p (identity k v) n = bucketKey p' (identity k' v') n') :
    let middle := ':' :: bucketKeyType.toList ++ ':' :: bucketSchemaVersion.toList
    ((p.toList ++ middle) ++ ':' :: k.toList) ++ ':' :: v.toList.flatMap escapeChar =
      ((p'.toList ++ middle) ++ ':' :: k'.toList) ++ ':' :: v'.toList.flatMap escapeChar ∧
    n = n' := by
  have hchars := congrArg String.toList h
  rw [bucketKey_toList, bucketKey_toList] at hchars
  obtain ⟨hfront, hsize⟩ := append_separator_inj (colon_notMem_toString n)
    (colon_notMem_toString n') hchars
  exact ⟨hfront, toString_injective (String.toList_inj.mp hsize)⟩

/-- No two combinations of prefix, kind, value and bucket size share a key, whatever the
prefix and the value are made of. -/
theorem bucketKey_identity_injective
    (keyPrefix keyPrefix' kind kind' value value' : String) (bucketSize bucketSize' : ℕ)
    (hkind : '\\' ∉ kind.toList ∧ ':' ∉ kind.toList)
    (hkind' : '\\' ∉ kind'.toList ∧ ':' ∉ kind'.toList)
    (h : bucketKey keyPrefix (identity kind value) bucketSize =
      bucketKey keyPrefix' (identity kind' value') bucketSize') :
    keyPrefix = keyPrefix' ∧ kind = kind' ∧ value = value' ∧ bucketSize = bucketSize' := by
  obtain ⟨hfront, hsize⟩ := bucketKey_front h
  obtain ⟨hkeyPrefix, hkinds, hvalue⟩ := append_identity_inj hkind hkind' hfront
  exact ⟨String.toList_inj.mp (List.append_cancel_right hkeyPrefix), String.toList_inj.mp hkinds,
    String.toList_inj.mp hvalue, hsize⟩

/-- Unescaped these two keys would be the same. -/
theorem bucketKey_identity_injective_lookalike :
    let value := "alice:bucket:v1:sasl:bob"
    let keyPrefix := "p:bucket:v1:sasl:alice"
    "p" ++ ":bucket:v1:sasl:" ++ value = keyPrefix ++ ":bucket:v1:sasl:" ++ "bob" ∧
      bucketKey "p" (identity saslIdentityKind value) 64 ≠
        bucketKey keyPrefix (identity saslIdentityKind "bob") 64 := by
  intro value keyPrefix
  have hkind : '\\' ∉ saslIdentityKind.toList ∧ ':' ∉ saslIdentityKind.toList := by decide
  refine ⟨by decide, fun h => ?_⟩
  obtain ⟨hkeyPrefix, _⟩ := bucketKey_identity_injective "p" keyPrefix saslIdentityKind
    saslIdentityKind value "bob" 64 64 hkind hkind h
  exact absurd hkeyPrefix (by decide)

/-- The keys of one sender under one instance's prefix, by bucket size. -/
def saslKey (keyPrefix saslUsername : String) (bucketSize : ℕ) : String :=
  bucketKey keyPrefix (identity saslIdentityKind saslUsername) bucketSize

theorem saslKey_inj {p p' u u' : String} {n n' : ℕ} (h : saslKey p u n = saslKey p' u' n') :
    p = p' ∧ u = u' ∧ n = n' := by
  have hkind : '\\' ∉ saslIdentityKind.toList ∧ ':' ∉ saslIdentityKind.toList := by decide
  obtain ⟨hfront, hsize⟩ := bucketKey_front h
  obtain ⟨hkeyPrefix, _, hvalue⟩ := append_identity_inj hkind hkind hfront
  exact ⟨String.toList_inj.mp (List.append_cancel_right hkeyPrefix), String.toList_inj.mp hvalue,
    hsize⟩

theorem saslKey_injective (p u : String) : Function.Injective (saslKey p u) :=
  fun _ _ h => (saslKey_inj h).2.2

/-- Why a check came back without an answer. -/
inductive RedisError
  | connection
  | script (e : ScriptError)
  deriving DecidableEq, Repr

/-- What may happen to one invocation besides its normal course. -/
inductive Fault
  | none
  /-- the call failed before the script ran -/
  | notSent
  /-- the script ran and its reply was lost -/
  | replyLost
  deriving DecidableEq, Repr

/-- An instance's limiter; its connection is the shared database. -/
structure Limiter where
  keyPrefix : String
  deriving DecidableEq, Repr

/-- One script invocation as its caller sees it. -/
def invokeAsync (fault : Fault) (script : Script ℤ) : EStateM RedisError Db ℤ := fun db =>
  match fault, script.run db with
  | .notSent, _ => .error .connection db
  | .replyLost, .ok _ db' => .error .connection db'
  | .replyLost, .error _ db' => .error .connection db'
  | .none, .ok reply db' => .ok reply db'
  | .none, .error e db' => .error (.script e) db'

theorem run_invokeAsync (script : Script ℤ) (db : Db) :
    (invokeAsync .none script).run db =
      match script.run db with
      | .ok reply db' => .ok reply db'
      | .error e db' => .error (.script e) db' := by
  show invokeAsync .none script db = _
  unfold invokeAsync
  split <;> simp_all

/-- Records only if every window in `plan` accepts; returns whether it was allowed. A
plan without bucket sizes permits without touching the database. -/
def Limiter.checkSasl (limiter : Limiter) (saslUsername : String) (recipientCount : UInt32)
    (plan : CheckPlan) (nowOverride : Option ℕ) (clock : Clock) (fault : Fault) :
    EStateM RedisError Db Bool := do
  if plan.bucketSizes.isEmpty then pure true
  else
    let saslIdentity := identity saslIdentityKind saslUsername
    let keys := plan.bucketSizes.map (bucketKey limiter.keyPrefix saslIdentity)
    let allowed ← invokeAsync fault
      (checkAndRecord clock keys ⟨recipientCount, nowOverride, plan⟩)
    pure (allowed == 1)

end PostfixRatelimitd
