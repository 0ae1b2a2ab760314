import PostfixRatelimitd.DaemonAccounts
import PostfixRatelimitd.PolicyGrammar

/-!
# Throttled log lines

How a throttled occurrence is logged goes by what its counter held, which is what was counted
since the counter was last set back. So between two reports a few occurrences are logged and one
notice, however many there are. Unreadable requests and failures to accept are not throttled.
-/
namespace PostfixRatelimitd
open TaskPool

namespace Logging

def isAlways : Logging → Bool
  | always _ => true
  | _ => false

def isThrottled : Logging → Bool
  | throttled _ => true
  | _ => false

end Logging

namespace DaemonEvent

/-- An occurrence that this counter counts is logged as such. -/
def isFull (counter : StatsCounter) : DaemonEvent → Bool
  | counted c _ (some (.full _)) => c == counter
  | _ => false

/-- It is logged that further occurrences are not. -/
def isNotice (counter : StatsCounter) : DaemonEvent → Bool
  | counted c _ (some (.suppressing _)) => c == counter
  | _ => false

/-- What this counter counts is logged in such a way. -/
def logs (counter : StatsCounter) (p : Logging → Bool) : DaemonEvent → Bool
  | counted c logging _ => c != counter || p logging
  | _ => true

end DaemonEvent

namespace DaemonSystem
variable {setup : ConnectionSetup} {config : Config} {s : DaemonSystem} {log : List DaemonEvent}

/-- Each event was truthful when it was observed. -/
def TruthfulLog : List DaemonEvent → Prop
  | [] => True
  | e :: log => e.Truthful (statsAfter log) ∧ TruthfulLog log

theorem TruthfulLog.older : ∀ {log older : List DaemonEvent}, TruthfulLog log → older <:+ log →
    TruthfulLog older := by
  intro log
  induction log with
  | nil =>
    intro older _ hsuffix
    rw [List.suffix_nil.mp hsuffix]
    trivial
  | cons e log ih =>
    intro older hlog hsuffix
    rcases List.suffix_cons_iff.mp hsuffix with rfl | hrest
    · exact hlog
    · exact ih hlog.2 hrest

theorem logThrottled_natCast {n : ℕ} (h : n < 2 ^ 64) (kind : String) :
    logThrottled (n : UInt64) kind =
      if n < 5 then some (.full kind) else if n = 5 then some (.suppressing kind) else none := by
  have hcast : ((n : UInt64)).toNat = n := by
    show (UInt64.ofNat n).toNat = n
    simpa using h
  have hlimit : logSuppressionLimit.toNat = 5 := rfl
  unfold logThrottled
  simp only [UInt64.lt_iff_toNat_lt, ← UInt64.toNat_inj, hcast, hlimit]

/-- The lines logged of a throttled counter since it was last set back: at most five occurrences
and one notice, and as many as that when none of them is kept silent. -/
structure Throttled (counter : StatsCounter) (recent : List DaemonEvent) : Prop where
  full_le : recent.countP (DaemonEvent.isFull counter) ≤
    min (recent.countP (DaemonEvent.isCounted counter)) 5
  notice_le : recent.countP (DaemonEvent.isNotice counter) ≤
    min (recent.countP (DaemonEvent.isCounted counter) - 5) 1
  full_eq : (∀ e ∈ recent, e.logs counter Logging.isThrottled) →
    recent.countP (DaemonEvent.isFull counter) =
      min (recent.countP (DaemonEvent.isCounted counter)) 5
  notice_eq : (∀ e ∈ recent, e.logs counter Logging.isThrottled) →
    recent.countP (DaemonEvent.isNotice counter) =
      min (recent.countP (DaemonEvent.isCounted counter) - 5) 1

theorem isFull_uncounted {counter : StatsCounter} {e : DaemonEvent}
    (he : e.isCounted counter = false) : e.isFull counter = false := by
  cases e with
  | counted c logging line => cases line with
    | none => rfl
    | some line => cases line <;> first | exact he | rfl
  | _ => rfl

theorem isNotice_uncounted {counter : StatsCounter} {e : DaemonEvent}
    (he : e.isCounted counter = false) : e.isNotice counter = false := by
  cases e with
  | counted c logging line => cases line with
    | none => rfl
    | some line => cases line <;> first | exact he | rfl
  | _ => rfl

namespace Throttled
variable {counter : StatsCounter} {recent : List DaemonEvent}

theorem nil : Throttled counter [] := ⟨by simp, by simp, by simp, by simp⟩

/-- Nothing is counted, so nothing is logged of it. -/
theorem other {e : DaemonEvent} (h : Throttled counter recent) (he : e.isCounted counter = false) :
    Throttled counter (e :: recent) := by
  have hfull := isFull_uncounted he
  have hnotice := isNotice_uncounted he
  constructor
  · simpa [he, hfull] using h.full_le
  · simpa [he, hnotice] using h.notice_le
  · intro hlogs
    simpa [he, hfull] using h.full_eq (fun x hx => hlogs x (List.mem_cons_of_mem e hx))
  · intro hlogs
    simpa [he, hnotice] using h.notice_eq (fun x hx => hlogs x (List.mem_cons_of_mem e hx))

/-- One more occurrence: among the first five it may be logged, as the sixth it may be the notice,
and each is when it is not kept silent. -/
theorem occurrence {e : DaemonEvent} (h : Throttled counter recent) (he : e.isCounted counter)
    (hfull : e.isFull counter → recent.countP (DaemonEvent.isCounted counter) < 5)
    (hnotice : e.isNotice counter → recent.countP (DaemonEvent.isCounted counter) = 5)
    (hlogged : e.logs counter Logging.isThrottled →
      (recent.countP (DaemonEvent.isCounted counter) < 5 → e.isFull counter) ∧
        (recent.countP (DaemonEvent.isCounted counter) = 5 → e.isNotice counter)) :
    Throttled counter (e :: recent) := by
  obtain ⟨hfulls, hnotices, hfullEq, hnoticeEq⟩ := h
  have holder : (∀ x ∈ e :: recent, x.logs counter Logging.isThrottled) →
      ∀ x ∈ recent, x.logs counter Logging.isThrottled :=
    fun hlogs x hx => hlogs x (List.mem_cons_of_mem e hx)
  constructor
  · rw [List.countP_cons_of_pos he, List.countP_cons]
    split_ifs with hline
    · have := hfull hline
      omega
    · omega
  · rw [List.countP_cons_of_pos he, List.countP_cons]
    split_ifs with hline
    · have := hnotice hline
      omega
    · omega
  · intro hlogs
    have hbefore := hfullEq (holder hlogs)
    have hline' := (hlogged (hlogs e List.mem_cons_self)).1
    rw [List.countP_cons_of_pos he, List.countP_cons]
    split_ifs with hline
    · have := hfull hline
      omega
    · have := mt hline' hline
      omega
  · intro hlogs
    have hbefore := hnoticeEq (holder hlogs)
    have hline' := (hlogged (hlogs e List.mem_cons_self)).2
    rw [List.countP_cons_of_pos he, List.countP_cons]
    split_ifs with hline
    · have := hnotice hline
      omega
    · have := mt hline' hline
      omega

theorem counted (h : Throttled counter recent) {logging : Logging}
    (hlogging : logging.isAlways = false)
    (hfew : recent.countP (DaemonEvent.isCounted counter) < 2 ^ 64) :
    Throttled counter (.counted counter logging (logging.line
      ((recent.countP (DaemonEvent.isCounted counter) : ℕ) : UInt64)) :: recent) := by
  cases logging with
  | always kind => cases hlogging
  | silent =>
    refine h.occurrence (beq_self_eq_true counter) ?_ ?_ ?_
    · simp [DaemonEvent.isFull, Logging.line]
    · simp [DaemonEvent.isNotice, Logging.line]
    · simp [DaemonEvent.logs, Logging.isThrottled]
  | throttled kind =>
    rw [Logging.line, logThrottled_natCast hfew]
    refine h.occurrence (beq_self_eq_true counter) ?_ ?_ ?_
    · split_ifs <;> simp_all [DaemonEvent.isFull]
    · split_ifs <;> simp_all [DaemonEvent.isNotice]
    · split_ifs with hfirst hlimit
      · exact fun _ => ⟨fun _ => beq_self_eq_true counter, by omega⟩
      · exact fun _ => ⟨by omega, fun _ => beq_self_eq_true counter⟩
      · exact fun _ => ⟨by omega, by omega⟩

end Throttled

end DaemonSystem
end PostfixRatelimitd
