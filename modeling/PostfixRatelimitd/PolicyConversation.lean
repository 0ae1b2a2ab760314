import PostfixRatelimitd.DaemonRuns
import PostfixRatelimitd.PolicyGrammar
import PostfixRatelimitd.Transcripts

/-!
# Conversations with policy clients

A connection's requests are read from its stream one after another, decided on the database in
that order, and answered in that order, whatever the other connections do. An answer has the
form of a request, so that a client reads answers as the daemon reads requests.
-/
namespace PostfixRatelimitd

/-- The next request of a stream, if there is one that can be read. -/
def Request.readNext (reader : List UInt8) : Option (Request × List UInt8) :=
  match Request.readFrom reader with
  | (.ok (some request), rest) => some (request, rest)
  | _ => none

theorem Request.readNext_eq {reader rest : List UInt8} {request : Request}
    (h : Request.readFrom reader = (.ok (some request), rest)) :
    Request.readNext reader = some (request, rest) := by
  unfold Request.readNext
  rw [h]

/-! ## One handler -/

/-- The request that was read and is not yet decided. -/
def HandlerStep.pending : HandlerStep → List Request
  | loadFull request | handleRequest request _ => [request]
  | select | count _ | writeAction _ | malformed | returned => []

/-- The handler goes on reading. -/
def HandlerStep.reading : HandlerStep → Bool
  | malformed | returned => false
  | _ => true

/-- What is written for requests that were decided. -/
def responses (served : List (Dispatch × Handled)) : List UInt8 :=
  served.flatMap (fun x => writeAction x.2.action)

theorem responses_snoc (served : List (Dispatch × Handled)) (x : Dispatch × Handled) :
    responses (served ++ [x]) = responses served ++ writeAction x.2.action := by
  simp [responses]

namespace PolicyHandler

/-- Every request is answered but the last, whose answer may be under way or cut short. -/
inductive Answered (h : PolicyHandler) : Prop
  | all (hidle : ∀ handled, h.step ≠ .count handled)
      (hwritten : ∀ action, h.step ≠ .writeAction action)
      (hwriter : h.writer = responses h.served)
  | deciding {before : List (Dispatch × Handled)} {d : Dispatch} {handled : Handled}
      (hserved : h.served = before ++ [(d, handled)])
      (hstep : h.step = .count handled ∨ h.step = .writeAction handled.action)
      (hwriter : h.writer = responses before)
  | cut {before : List (Dispatch × Handled)} {x : Dispatch × Handled} (n : ℕ)
      (hserved : h.served = before ++ [x]) (hstep : h.step = .returned)
      (hwriter : h.writer = responses before ++ (writeAction x.2.action).take n)

/-- What a connection has to do with its stream and with what was decided on the database. -/
structure Conversation (h : PolicyHandler) (handled : List (Dispatch × Handled)) : Prop where
  asked : ∃ rest, Reads Request.readNext h.stream
    (h.served.map (fun x => x.1.delivery.request) ++ h.step.pending) rest ∧
      (h.step.reading → rest = h.reader)
  decided : h.served.reverse.Sublist handled
  answered : h.Answered

theorem Conversation.start (stream : List UInt8) (handled : List (Dispatch × Handled)) :
    (PolicyHandler.start stream).Conversation handled where
  asked := ⟨stream, .none, fun _ => rfl⟩
  decided := List.nil_sublist _
  answered := .all (by simp [PolicyHandler.start]) (by simp [PolicyHandler.start]) rfl

theorem Conversation.elsewhere {h : PolicyHandler} {handled : List (Dispatch × Handled)}
    (hc : h.Conversation handled) (x : Dispatch × Handled) : h.Conversation (x :: handled) where
  asked := hc.asked
  decided := hc.decided.cons x
  answered := hc.answered

theorem Conversation.moves {state : RuntimeState} {h h' : PolicyHandler} {seen : List DaemonEvent}
    {handled : List (Dispatch × Handled)} (hc : h.Conversation handled)
    (hmoves : h.Moves state seen h') : h'.Conversation handled := by
  obtain ⟨⟨rest, hreads, hrest⟩, hdecided, hanswered⟩ := hc
  have hall : ∀ {step reader}, h.step = .select ∨ (∃ request, h.step = .loadFull request) ∨
      h.step = .malformed → (∀ handled, step ≠ .count handled) →
        (∀ action, step ≠ .writeAction action) →
          PolicyHandler.Answered { h with step := step, reader := reader } := by
    intro step reader hstep hidle hwritten
    cases hanswered with
    | all _ _ hwriter => exact .all hidle hwritten hwriter
    | deciding _ hstep' _ => rcases hstep with hs | ⟨_, hs⟩ | hs <;> simp [hs] at hstep'
    | cut _ _ hstep' _ => rcases hstep with hs | ⟨_, hs⟩ | hs <;> simp [hs] at hstep'
  cases hmoves with
  | @read request rest' hstep hread =>
    obtain rfl := hrest (by rw [hstep]; rfl)
    rw [hstep, HandlerStep.pending, List.append_nil] at hreads
    exact ⟨⟨rest', hreads.one (Request.readNext_eq hread), fun _ => rfl⟩, hdecided,
      hall (.inl hstep) (by simp) (by simp)⟩
  | ended hstep hread | unreadable hstep hread =>
    rw [hstep, HandlerStep.pending] at hreads
    exact ⟨⟨rest, hreads, by simp [HandlerStep.reading]⟩, hdecided,
      hall (.inl hstep) (by simp) (by simp)⟩
  | reset hstep | cancelled hstep =>
    rw [hstep, HandlerStep.pending] at hreads
    exact ⟨⟨rest, hreads, by simp [HandlerStep.reading]⟩, hdecided,
      hall (.inl hstep) (by simp) (by simp)⟩
  | load hstep =>
    rw [hstep] at hreads hrest
    exact ⟨⟨rest, hreads, hrest⟩, hdecided, hall (.inr (.inl ⟨_, hstep⟩)) (by simp) (by simp)⟩
  | @count handled' line hstep =>
    rw [hstep] at hreads hrest
    refine ⟨⟨rest, hreads, hrest⟩, hdecided, ?_⟩
    cases hanswered with
    | all hidle _ _ => exact absurd hstep (hidle handled')
    | deciding hserved hstep' hwriter =>
      rw [hstep] at hstep'
      obtain rfl := by simpa using hstep'
      exact .deciding hserved (.inr rfl) hwriter
    | cut _ _ hstep' _ => simp [hstep] at hstep'
  | countMalformed hstep =>
    rw [hstep, HandlerStep.pending] at hreads
    exact ⟨⟨rest, hreads, by simp [HandlerStep.reading]⟩, hdecided,
      hall (.inr (.inr hstep)) (by simp) (by simp)⟩
  | @wrote action hstep =>
    rw [hstep] at hreads hrest
    refine ⟨⟨rest, hreads, hrest⟩, hdecided, ?_⟩
    cases hanswered with
    | all _ hwritten _ => exact absurd hstep (hwritten action)
    | deciding hserved hstep' hwriter =>
      rw [hstep] at hstep'
      obtain rfl := by simpa using hstep'
      refine .all (by simp) (by simp) ?_
      show h.writer ++ _ = responses h.served
      rw [hserved, responses_snoc, hwriter]
    | cut _ _ hstep' _ => simp [hstep] at hstep'
  | @writeFailed action n hstep =>
    rw [hstep, HandlerStep.pending] at hreads
    refine ⟨⟨rest, hreads, by simp [HandlerStep.reading]⟩, hdecided, ?_⟩
    cases hanswered with
    | all _ hwritten _ => exact absurd hstep (hwritten action)
    | deciding hserved hstep' hwriter =>
      rw [hstep] at hstep'
      obtain rfl := by simpa using hstep'
      refine .cut n hserved rfl ?_
      show h.writer ++ _ = _
      rw [hwriter]
    | cut _ _ hstep' _ => simp [hstep] at hstep'

theorem Conversation.decide {h : PolicyHandler} {clock : Clock} {fault : Fault} {d : Dispatch}
    {handled : List (Dispatch × Handled)} (hc : h.Conversation handled)
    (hd : h.dispatch clock fault = some d) (decision : Handled) :
    (h.decided d decision).Conversation ((d, decision) :: handled) := by
  obtain ⟨⟨rest, hreads, hrest⟩, hdecided, hanswered⟩ := hc
  obtain ⟨request, current, hstep, rfl⟩ := dispatch_eq_some hd
  rw [hstep] at hreads hrest
  refine ⟨⟨rest, ?_, hrest⟩, ?_, ?_⟩
  · show Reads Request.readNext h.stream ((h.served ++ [(_, decision)]).map _ ++ []) rest
    rw [List.map_append, List.append_nil]
    exact hreads
  · show ((h.served ++ [(_, decision)]).reverse).Sublist _
    rw [List.reverse_append]
    exact hdecided.cons_cons _
  · cases hanswered with
    | all _ _ hwriter => exact .deciding rfl (.inl rfl) hwriter
    | deciding _ hstep' _ => simp [hstep] at hstep'
    | cut _ _ hstep' _ => simp [hstep] at hstep'

end PolicyHandler

/-! ## Answers -/

/-- An answer, read as a request is. -/
def answerRequest (action : String) : Request := ⟨fun k => [("action", action)].reverse.lookup k⟩

theorem writeAction_eq (action : String) :
    writeAction action = Request.encodeRequest [("action", action)] := by
  unfold writeAction Request.encodeRequest Request.requestBytes Request.block
  congr 1
  simp [Request.pairLine]

/-- All that is ever answered. -/
def policyActions : List String :=
  [actionDunno, actionServiceUnavailable, actionRateLimited, actionMisconfigured]

theorem handle_action (d : Delivery) (db : Db) : (d.handle db).1.action ∈ policyActions := by
  unfold Delivery.handle handleRequest
  split_ifs
  · simp [policyActions, misconfigured]
  · split
    · simp [policyActions, unauthenticated]
    · split
      · simp [policyActions, misconfigured]
      · simp only
        unfold answer
        split
        · simp [policyActions]
        · simp [policyActions]
        · split
          · simp [policyActions]
          · simp [policyActions]

/-- What is answered can be read back. -/
theorem encodable_action {action : String} (h : action ∈ policyActions) :
    Request.Encodable ("action", action) ∧
      (Request.encodeRequest [("action", action)]).length ≤ maxRequestBytes := by
  simp only [policyActions, List.mem_cons, List.not_mem_nil, or_false] at h
  rcases h with rfl | rfl | rfl | rfl
  · exact ⟨⟨by decide, by decide⟩, by decide⟩
  · exact ⟨⟨by decide, by decide⟩, by decide⟩
  · exact ⟨⟨by decide, by decide⟩, by decide⟩
  · exact ⟨⟨by decide, by decide +kernel⟩, by decide +kernel⟩

theorem readNext_writeAction {action : String} (h : action ∈ policyActions) (rest : List UInt8) :
    Request.readNext (writeAction action ++ rest) = some (answerRequest action, rest) := by
  obtain ⟨hencodable, hfits⟩ := encodable_action h
  rw [writeAction_eq]
  exact Request.readNext_eq
    (Request.readFrom_encodeRequest (by simpa using hencodable) hfits rest)

theorem readNext_nil : Request.readNext [] = none := by
  have hend : Request.readFrom [] = (.ok none, []) := by
    unfold Request.readFrom
    rw [Request.readLines_ok (readLine_nil maxRequestBytes)]
    rfl
  unfold Request.readNext
  rw [hend]

/-- An answer that is cut short is none. -/
theorem readNext_take {action : String} (h : action ∈ policyActions) {n : ℕ}
    (hcut : n < (writeAction action).length) :
    Request.readNext ((writeAction action).take n) = none := by
  obtain ⟨hencodable, _⟩ := encodable_action h
  rw [writeAction_eq] at hcut ⊢
  have hlines : ∀ line ∈ [Request.pairLine ("action", action)],
      '\n' ∉ line ∧ ∃ c ∈ line, c ≠ '\r' := by
    intro line hline
    obtain rfl := List.mem_singleton.mp hline
    exact ⟨Request.lf_notMem_pairLine hencodable, Request.pairLine_full _⟩
  unfold Request.readNext Request.readFrom
  split
  · rename_i request rest hread
    obtain ⟨hresult, _⟩ := Prod.ext_iff.mp hread
    exact (Request.readLines_cut hlines (by simp) hcut request _ (Prod.ext hresult rfl)).elim
  · rfl

/-- What a client reads of the answers are the actions that were decided, in order. -/
theorem PolicyHandler.Answered.read {h : PolicyHandler} (hanswered : h.Answered)
    (hactions : ∀ x ∈ h.served, x.2.action ∈ policyActions) {answers : List Request}
    {rest : List UInt8} (hread : Reads Request.readNext h.writer answers rest) :
    answers <+: h.served.map (fun x => answerRequest x.2.action) := by
  have hall : ∀ served : List (Dispatch × Handled), (∀ x ∈ served, x.2.action ∈ policyActions) →
      ∀ left, Reads Request.readNext (responses served ++ left)
        (served.map (fun x => answerRequest x.2.action)) left :=
    fun served hserved => .of_encode (fun x hx => readNext_writeAction (hserved x hx))
  cases hanswered with
  | all _ _ hwriter =>
    have hend := hall h.served hactions []
    rw [List.append_nil, ← hwriter] at hend
    exact hread.isPrefix_of_end hend readNext_nil
  | @deciding before d handled hserved _ hwriter =>
    have hend := hall before (fun x hx => hactions x (hserved ▸ List.mem_append_left _ hx)) []
    rw [List.append_nil, ← hwriter] at hend
    refine (hread.isPrefix_of_end hend readNext_nil).trans ?_
    rw [hserved, List.map_append]
    exact List.prefix_append _ _
  | @cut before x n hserved _ hwriter =>
    have hx : x.2.action ∈ policyActions := hactions x (by simp [hserved])
    rcases Nat.lt_or_ge n (writeAction x.2.action).length with hcut | hwhole
    · have hend := hall before (fun x hx => hactions x (hserved ▸ List.mem_append_left _ hx))
        ((writeAction x.2.action).take n)
      rw [← hwriter] at hend
      refine (hread.isPrefix_of_end hend (readNext_take hx hcut)).trans ?_
      rw [hserved, List.map_append]
      exact List.prefix_append _ _
    · have hend := hall h.served hactions []
      rw [List.take_of_length_le hwhole, ← responses_snoc, ← hserved] at hwriter
      rw [List.append_nil, ← hwriter] at hend
      exact hread.isPrefix_of_end hend readNext_nil

/-! ## Runs of the daemon -/

namespace DaemonSystem
variable {setup : ConnectionSetup} {config : Config} {s s' : DaemonSystem} {a : Action}

def Conversations (s : DaemonSystem) : Prop :=
  ∀ handler ∈ s.handlers, ∀ h, handler = some h → h.Conversation s.databases.handled

theorem Conversations.step (hconversations : s.Conversations) (hnext : next setup s a = some s') :
    s'.Conversations := by
  have heffect := next_effect hnext
  generalize s.events a = seen at heffect
  unfold Conversations at *
  cases heffect with
  | aside hhandlers hdatabases _ =>
    rw [hhandlers, hdatabases]
    exact hconversations
  | spawned handler _ hstart hhandlers hdatabases =>
    rw [hhandlers, hdatabases]
    refine TaskPool.forall_snoc hconversations ?_
    intro h hh
    obtain ⟨stream, rfl⟩ := hstart h hh
    exact .start stream _
  | @moved i h h' _ hi hmoves hhandlers hdatabases =>
    rw [hhandlers, hdatabases]
    refine TaskPool.forall_set hconversations i ?_
    rintro h'' ⟨⟩
    exact (hconversations _ (List.mem_of_getElem? hi) h rfl).moves hmoves
  | @decided i h clock fault d hi hd hhandlers hdatabases _ =>
    rw [hhandlers, hdatabases]
    refine TaskPool.forall_set (fun handler hmem h hh => ?_) i ?_
    · exact (hconversations handler hmem h hh).elsewhere _
    · rintro h' ⟨⟩
      exact (hconversations _ (List.mem_of_getElem? hi) h rfl).decide hd _
  | ended hi _ hhandlers hdatabases | dropped hi _ hhandlers hdatabases =>
    rw [hhandlers, hdatabases]
    exact TaskPool.forall_eraseIdx hconversations _
  | elsewhere d hhandlers hdatabases _ =>
    rw [hhandlers, hdatabases]
    exact fun handler hmem h hh => (hconversations handler hmem h hh).elsewhere _

theorem conversation_reached {ok : DaemonSystem → Action → Bool}
    (h : Reachable (next setup) ok (start config) s) {handler : PolicyHandler}
    (hmem : some handler ∈ s.handlers) : handler.Conversation s.databases.handled := by
  have hconversations : s.Conversations :=
    h.invariant (show (start config).Conversations by simp [Conversations, start])
      (fun _ _ _ hi _ hnext => hi.step hnext)
  exact hconversations _ hmem handler rfl

/-- Every answer was decided as the handler decides it. -/
theorem action_reached {ok : DaemonSystem → Action → Bool}
    (h : Reachable (next setup) ok (start config) s) :
    ∀ x ∈ s.databases.handled, x.2.action ∈ policyActions := by
  refine @Reachable.invariant _ _ _ _ _ _
    (fun s => ∀ x ∈ s.databases.handled, x.2.action ∈ policyActions)
    (by simp [start, Databases.empty]) (fun s a s' hactions _ hnext => ?_) h
  have hstep : ∀ d : Dispatch, ∀ x ∈ (s.databases.step d).handled, x.2.action ∈ policyActions :=
    fun d => List.forall_mem_cons.mpr ⟨handle_action d.delivery _, hactions⟩
  have heffect := next_effect hnext
  generalize s.events a = seen at heffect
  cases heffect with
  | aside _ hdatabases _ | spawned _ _ _ _ hdatabases | moved _ _ _ hdatabases
  | ended _ _ _ hdatabases | dropped _ _ _ hdatabases =>
    rw [hdatabases]
    exact hactions
  | decided _ _ _ hdatabases _ | elsewhere _ _ hdatabases _ =>
    rw [hdatabases]
    exact hstep _

/-- A connection's requests are read from its stream one after another, each is decided on the
database after those before it, and the answers that its client reads are the actions decided on
its requests, in the order of the requests, whatever the other connections and instances do. When
the handler waits, all it read is answered. -/
theorem policy_conversation (setup : ConnectionSetup) (config : Config) (s : DaemonSystem)
    (handler : PolicyHandler)
    (h : Reachable (next setup) (fun _ _ => true) (start config) s)
    (hmem : some handler ∈ s.handlers) :
    (∃ requests rest, Reads Request.readNext handler.stream requests rest ∧
      handler.served.map (fun x => x.1.delivery.request) <+: requests ∧
      requests.length ≤ handler.served.length + 1 ∧
      (handler.step = .select → requests.length = handler.served.length ∧ rest = handler.reader)) ∧
    handler.served.reverse.Sublist s.databases.handled ∧
    (∀ answers rest, Reads Request.readNext handler.writer answers rest →
      answers.map (fun answer => answer.attributes "action") <+:
        handler.served.map (fun x => some x.2.action)) ∧
    (handler.step = .select →
      handler.writer = handler.served.flatMap (fun x => writeAction x.2.action)) := by
  obtain ⟨⟨rest, hreads, hrest⟩, hdecided, hanswered⟩ := conversation_reached h hmem
  refine ⟨⟨_, rest, hreads, List.prefix_append _ _, ?_, ?_⟩, hdecided, ?_, ?_⟩
  · rw [List.length_append, List.length_map]
    cases handler.step <;> simp [HandlerStep.pending]
  · intro hstep
    rw [hstep] at hrest
    rw [hstep]
    exact ⟨by simp [HandlerStep.pending], hrest rfl⟩
  · intro answers rest hread
    have hactions : ∀ x ∈ handler.served, x.2.action ∈ policyActions := fun x hx =>
      action_reached h _ (hdecided.subset (List.mem_reverse.mpr hx))
    have hreceived := (hanswered.read hactions hread).map (fun answer => answer.attributes "action")
    rw [List.map_map] at hreceived
    exact hreceived
  · intro hstep
    cases hanswered with
    | all _ _ hwriter => exact hwriter
    | deciding _ hstep' _ => simp [hstep] at hstep'
    | cut _ _ hstep' _ => simp [hstep] at hstep'

/-- A message for one recipient. -/
def oneRecipient : List (String × String) :=
  [("sasl_username", "alice"), ("recipient_count", "1")]

theorem oneRecipient_encodable : (∀ pair ∈ oneRecipient, Request.Encodable pair) ∧
    (Request.encodeRequest oneRecipient).length ≤ maxRequestBytes := by
  refine ⟨?_, by decide⟩
  intro pair hpair
  rcases List.mem_cons.mp hpair with rfl | hpair
  · exact ⟨by decide, by decide⟩
  · obtain rfl := List.mem_singleton.mp hpair
    exact ⟨by decide, by decide⟩

/-- Everybody may send to one recipient a minute. -/
def oneAMinute : Config :=
  ⟨⟨.unix "/run/valkey.sock", 0, none, none, .resp2, none, none⟩, "postfix-ratelimitd", .defer,
    true, "/run/policy.sock", none, [], CheckPlan.new [⟨1, .fromSecs 60⟩]⟩

/-- The decision on such a message at the start of the epoch. -/
def oneDispatch : Dispatch where
  database := oneAMinute.redisConnectionInfo.database
  delivery := ⟨⟨fun key => oneRecipient.reverse.lookup key⟩, oneAMinute,
    ⟨oneAMinute.redisKeyPrefix⟩, ⟨0, by decide⟩, .none⟩

theorem readFrom_oneRecipient (rest : List UInt8) :
    Request.readFrom (Request.encodeRequest oneRecipient ++ rest) =
      (.ok (some oneDispatch.delivery.request), rest) :=
  Request.readFrom_encodeRequest oneRecipient_encodable.1 oneRecipient_encodable.2 rest

/-- The daemon accepts a client that sent such a message, and serves it. -/
theorem replay_first (setup : ConnectionSetup) {stream rest : List UInt8}
    (hstream : stream = Request.encodeRequest oneRecipient ++ rest) :
    let handled := (oneDispatch.handle (fun _ => Keyspace.empty)).1
    replay (recording (next setup) events) (fun _ _ => true) (start oneAMinute, [])
      (acceptActions stream ++ serveActions 0 ⟨0, by decide⟩ .none) =
        some ((accepted oneAMinute stream).served 0 (.start stream) rest oneDispatch,
          [.wrote, .counted handled.counter handled.logging
            (handled.logging.line ((accepted oneAMinute stream).slots.stats handled.counter)),
            .decided oneDispatch handled, .read, .counted .connectionsAccepted .silent none]) := by
  have hread : Request.readFrom (PolicyHandler.start stream).reader =
      (.ok (some oneDispatch.delivery.request), rest) := by
    show Request.readFrom stream = _
    rw [hstream]
    exact readFrom_oneRecipient rest
  have hi : (accepted oneAMinute stream).handler 0 = some (.start stream) := rfl
  exact replay_trans (replay_accept setup oneAMinute stream)
    (replay_serve setup [.counted .connectionsAccepted .silent none] hi rfl hread
      ⟨0, by decide⟩ .none)

/-- A client sends two such messages at once: the first is let through and the second is not. -/
theorem replay_twice (setup : ConnectionSetup) (stream : List UInt8)
    (hstream : stream = [oneRecipient, oneRecipient].flatMap Request.encodeRequest) :
    ∃ s handler, replay (next setup) (fun _ _ => true) (start oneAMinute)
        (acceptActions stream ++ (serveActions 0 ⟨0, by decide⟩ .none ++
          serveActions 0 ⟨0, by decide⟩ .none)) = some s ∧
      some handler ∈ s.handlers ∧ handler.step = .select ∧ handler.stream = stream ∧
      handler.reader = [] ∧
      handler.served.map (fun x => x.2.action) = [actionDunno, actionRateLimited] := by
  let rest := Request.encodeRequest oneRecipient ++ []
  let s₀ := accepted oneAMinute stream
  let h₁ := answered (.start stream) rest oneDispatch (oneDispatch.handle s₀.databases.db).1
  let s₁ := s₀.served 0 (.start stream) rest oneDispatch
  have hi₀ : s₀.handler 0 = some (.start stream) := rfl
  have hi₁ : s₁.handler 0 = some h₁ := handler_served hi₀ rest oneDispatch
  have hi₂ := handler_served hi₁ [] oneDispatch
  have hread₁ : Request.readFrom h₁.reader = (.ok (some oneDispatch.delivery.request), []) :=
    readFrom_oneRecipient []
  have hall := replay_trans (@replay_first setup stream rest hstream)
    (replay_serve setup _ hi₁ rfl hread₁ ⟨0, by decide⟩ .none)
  have hplain := @replay_of_recording _ _ _ _ _ (fun _ _ => true) _ _ _ hall
  rw [List.append_assoc] at hplain
  refine ⟨s₁.served 0 h₁ [] oneDispatch, _, hplain, List.mem_of_getElem? (handler_eq_some hi₂).1,
    rfl, rfl, rfl, ?_⟩
  show [(oneDispatch.handle (fun _ => Keyspace.empty)).1.action,
    (oneDispatch.handle (Databases.empty.step oneDispatch).db).1.action] = _
  decide +kernel

/-- The conversation of a client that sent two messages: both are read and decided, and the
answers are written in that order. -/
theorem policy_conversation_twice :
    let stream := [oneRecipient, oneRecipient].flatMap Request.encodeRequest
    ∃ s handler, replay (next ⟨true, true⟩) (fun _ _ => true) (start oneAMinute)
        (acceptActions stream ++ (serveActions 0 ⟨0, by decide⟩ .none ++
          serveActions 0 ⟨0, by decide⟩ .none)) = some s ∧
      some handler ∈ s.handlers ∧
      (∃ requests, Reads Request.readNext stream requests [] ∧
        handler.served.map (fun x => x.1.delivery.request) <+: requests ∧ requests.length = 2) ∧
      handler.served.reverse.Sublist s.databases.handled ∧
      handler.writer = writeAction actionDunno ++ writeAction actionRateLimited := by
  intro stream
  obtain ⟨s, handler, hs, hmem, hstep, hstream, hreader, hactions⟩ :=
    replay_twice ⟨true, true⟩ stream rfl
  obtain ⟨⟨requests, rest, hreads, hserved, _, hwaiting⟩, hdecided, _, hwriter⟩ :=
    policy_conversation ⟨true, true⟩ oneAMinute s handler (Reachable.start.of_replay _ hs) hmem
  obtain ⟨hlength, hrest⟩ := hwaiting hstep
  have htwo : handler.served.length = 2 := by
    have hboth := congrArg List.length hactions
    rw [List.length_map] at hboth
    exact hboth
  have hanswers : handler.writer =
      (handler.served.map (fun x => x.2.action)).flatMap writeAction := by
    rw [List.flatMap_map]
    exact hwriter hstep
  rw [hactions] at hanswers
  rw [hstream, hrest, hreader] at hreads
  refine ⟨s, handler, hs, hmem, ⟨requests, hreads, hserved, hlength.trans htwo⟩, hdecided, ?_⟩
  rw [hanswers, List.flatMap_cons, List.flatMap_singleton]

/-- A client that sends its requests without waiting reads, as its k-th answer, the action that was
decided on its k-th request, and when the handler waits with nothing left to read, every request
has its answer. -/
theorem pipelined_answered (setup : ConnectionSetup) (config : Config) (s : DaemonSystem)
    (handler : PolicyHandler) (requests : List (List (String × String)))
    (h : Reachable (next setup) (fun _ _ => true) (start config) s)
    (hmem : some handler ∈ s.handlers)
    (hstream : handler.stream = requests.flatMap Request.encodeRequest)
    (hrequests : ∀ pairs ∈ requests, (∀ pair ∈ pairs, Request.Encodable pair) ∧
      (Request.encodeRequest pairs).length ≤ maxRequestBytes) :
    (∀ answers rest, Reads Request.readNext handler.writer answers rest →
      ∀ (k : ℕ) answer, answers[k]? = some answer → ∃ pairs d handled,
        requests[k]? = some pairs ∧ handler.served[k]? = some (d, handled) ∧
        d.delivery.request = ⟨fun key => pairs.reverse.lookup key⟩ ∧
        answer.attributes "action" = some handled.action) ∧
    handler.served.reverse.Sublist s.databases.handled ∧
    (handler.step = .select → handler.reader = [] → ∃ answers,
      Reads Request.readNext handler.writer answers [] ∧ answers.length = requests.length) := by
  obtain ⟨⟨rest, hreads, hrest⟩, hdecided, hanswered⟩ := conversation_reached h hmem
  have hactions : ∀ x ∈ handler.served, x.2.action ∈ policyActions := fun x hx =>
    action_reached h _ (hdecided.subset (List.mem_reverse.mpr hx))
  have hall : Reads Request.readNext handler.stream
      (requests.map (fun pairs => ⟨fun key => pairs.reverse.lookup key⟩)) [] := by
    rw [hstream, ← List.append_nil (requests.flatMap Request.encodeRequest)]
    exact .of_encode (fun pairs hpairs rest => Request.readNext_eq (Request.readFrom_encodeRequest
      (hrequests pairs hpairs).1 (hrequests pairs hpairs).2 rest)) []
  refine ⟨?_, hdecided, ?_⟩
  · intro answers rest hread k answer hk
    have hserved := getElem?_of_isPrefix (hanswered.read hactions hread) hk
    rw [List.getElem?_map] at hserved
    obtain ⟨x, hx, rfl⟩ := Option.map_eq_some_iff.mp hserved
    have hasked := getElem?_of_isPrefix (x := x.1.delivery.request)
      ((List.prefix_append _ _).trans (hreads.isPrefix_of_end hall readNext_nil))
      (by rw [List.getElem?_map, hx]; rfl)
    rw [List.getElem?_map] at hasked
    obtain ⟨pairs, hpairs, hrequest⟩ := Option.map_eq_some_iff.mp hasked
    exact ⟨pairs, x.1, x.2, hpairs, hx, hrequest.symm, rfl⟩
  · intro hstep hreader
    rw [hstep, HandlerStep.pending, List.append_nil] at hreads
    rw [hstep] at hrest
    obtain rfl : rest = [] := (hrest rfl).trans hreader
    have hlength : handler.served.length = requests.length := by
      have hle := (hreads.isPrefix_of_end hall readNext_nil).length_le
      have hge := (hall.isPrefix_of_end hreads readNext_nil).length_le
      simp only [List.length_map] at hle hge
      omega
    cases hanswered with
    | all _ _ hwriter =>
      refine ⟨handler.served.map (fun x => answerRequest x.2.action), ?_, by simpa using hlength⟩
      rw [hwriter, ← List.append_nil (responses handler.served)]
      exact .of_encode (fun x hx => readNext_writeAction (hactions x hx)) []
    | deciding _ hstep' _ => simp [hstep] at hstep'
    | cut _ _ hstep' _ => simp [hstep] at hstep'

/-- Of two equal messages sent at once the first answer is the first one's and the second the
second one's. -/
theorem pipelined_answered_twice :
    let stream := [oneRecipient, oneRecipient].flatMap Request.encodeRequest
    ∃ s handler answers, replay (next ⟨true, true⟩) (fun _ _ => true) (start oneAMinute)
        (acceptActions stream ++ (serveActions 0 ⟨0, by decide⟩ .none ++
          serveActions 0 ⟨0, by decide⟩ .none)) = some s ∧
      some handler ∈ s.handlers ∧ Reads Request.readNext handler.writer answers [] ∧
      answers.map (fun answer => answer.attributes "action") =
        [some actionDunno, some actionRateLimited] := by
  intro stream
  obtain ⟨s, handler, hs, hmem, hstep, hstream, hreader, hactions⟩ :=
    replay_twice ⟨true, true⟩ stream rfl
  have hrequests : ∀ pairs ∈ [oneRecipient, oneRecipient],
      (∀ pair ∈ pairs, Request.Encodable pair) ∧
        (Request.encodeRequest pairs).length ≤ maxRequestBytes := by
    intro pairs hpairs
    obtain rfl : pairs = oneRecipient := by simpa using hpairs
    exact oneRecipient_encodable
  obtain ⟨hanswered, _, hall⟩ := pipelined_answered ⟨true, true⟩ oneAMinute s handler
    [oneRecipient, oneRecipient] (Reachable.start.of_replay _ hs) hmem hstream hrequests
  obtain ⟨answers, hreads, hlength⟩ := hall hstep hreader
  refine ⟨s, handler, answers, hs, hmem, hreads, ?_⟩
  have hkth : ∀ (k : ℕ) answer, answers[k]? = some answer →
      [actionDunno, actionRateLimited][k]? = answer.attributes "action" := by
    intro k answer hk
    obtain ⟨_, d, handled, _, hserved, _, haction⟩ := hanswered answers [] hreads k answer hk
    rw [← hactions, List.getElem?_map, hserved, haction]
    rfl
  match answers, hlength with
  | [first, second], _ =>
    rw [List.map_cons, List.map_cons, List.map_nil, ← hkth 0 first rfl, ← hkth 1 second rfl]
    rfl

end DaemonSystem
end PostfixRatelimitd
