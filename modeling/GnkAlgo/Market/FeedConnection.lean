import GnkAlgo.Lib.Deltas
import GnkAlgo.Market.FeedSessions

/-!
# One connection of a feed session

`DhanFeedSession._connected` of `backend/app/market/dhan.py`, step by step.  The
loop takes a snapshot of the desired subscriptions, sends what is to be removed and
what is to be added in messages of at most a hundred instruments, clears the event
that announces changes and waits.  The supervisor replaces the desired
subscriptions whenever the loop awaits something.

* `subscriptionMessages` — the messages of a list of subscriptions;
* `connectionStep` — one step of the loop, or a call of another task;
* `ClearsNothing` — the loop clears the event while the keys it has just sent are
  the keys desired;
* `no_change_lost_iff` — while the loop waits undisturbed the broker has the keys
  desired, in every state of a run, exactly when every step of the run meets that.
-/

namespace GnkAlgo

open Deltas Transition

/-! ## Messages -/

/-- What a subscription is stored under: `key`. -/
def DhanSubscription.key (item : DhanSubscription) : ℕ × String :=
  (item.exchangeCode, item.securityId)

/-- A subscription as `dhan_subscription` makes it. -/
structure FeedSubscription extends DhanSubscription where
  segment_code : segmentCodes.lookup exchangeSegment = some exchangeCode
  deriving DecidableEq

def FeedSubscription.key (item : FeedSubscription) : ℕ × String := item.toDhanSubscription.key

/-- The JSON object sent to the broker. -/
structure SubscriptionMessage where
  requestCode : ℕ
  instrumentCount : ℕ
  /-- `ExchangeSegment` and `SecurityId`. -/
  instrumentList : List (String × String)
  deriving DecidableEq, Repr

/-- `sorted(subscriptions, key=lambda item: (item.exchange_code, item.security_id))`. -/
def sortedByKey (subscriptions : List FeedSubscription) : List FeedSubscription :=
  subscriptions.insertionSort fun a b =>
    a.exchangeCode < b.exchangeCode ∨ a.exchangeCode = b.exchangeCode ∧ a.securityId ≤ b.securityId

def messageOf (requestCode : ℕ) (batch : List FeedSubscription) : SubscriptionMessage where
  requestCode := requestCode
  instrumentCount := batch.length
  instrumentList := batch.map fun item => (item.exchangeSegment, item.securityId)

/-- `subscription_messages`. -/
def subscriptionMessages (subscriptions : List FeedSubscription) (requestCode : ℕ)
    (batchSize : ℕ := 100) : Except FeedError (List SubscriptionMessage) :=
  if requestCode ∉ [15, 16, 17, 18, 21, 22] then
    .error (.protocol s!"Unsupported Dhan request code: {requestCode}")
  else .ok ((batches batchSize (sortedByKey subscriptions)).map (messageOf requestCode))

/-- `dhan_market_request_code` of the settings. -/
inductive FeedRequest
  | ticker
  | quote
  | full
  deriving DecidableEq, Repr

def FeedRequest.code : FeedRequest → ℕ
  | ticker => 15
  | quote => 17
  | full => 21

/-! ## The broker's side -/

/-- The keys a message names. -/
def SubscriptionMessage.keys (m : SubscriptionMessage) : Finset (ℕ × String) :=
  (m.instrumentList.filterMap fun (segment, securityId) =>
    (segmentCodes.lookup segment).map fun code => (code, securityId)).toFinset

/-- The request code subscribes, the next one unsubscribes. -/
def FeedRequest.deliver (request : FeedRequest) (held : Finset (ℕ × String))
    (m : SubscriptionMessage) : Finset (ℕ × String) :=
  if m.requestCode = request.code then held ∪ m.keys
  else if m.requestCode = request.code + 1 then held \ m.keys
  else held

/-! ## The loop -/

/-- Where the loop stands. -/
inductive LoopPhase
  /-- At the loop's head, not yet entered. -/
  | entering
  /-- Awaiting `send` of a message; what is left to send, and the snapshot. -/
  | sending (message : SubscriptionMessage) (rest : List SubscriptionMessage)
      (snapshot : List FeedSubscription)
  /-- Awaiting a packet, a change or the end. -/
  | parked
  /-- Woken: awaiting the cancelled tasks and handing out what was received. -/
  | woken (stopped : Bool)
  /-- Returned or raised. -/
  | ended
  deriving DecidableEq

structure FeedConnection where
  /-- `_desired`, a dictionary by key. -/
  desired : List FeedSubscription := []
  /-- `_changed`. -/
  changed : Bool := false
  /-- `_stopping`. -/
  stopping : Bool := false
  active : List FeedSubscription := []
  phase : LoopPhase := .entering
  /-- The keys subscribed at the broker by the messages of this connection. -/
  subscribed : Finset (ℕ × String) := ∅
  deriving DecidableEq

inductive ConnectionEvent
  /-- `replace_subscriptions`, from another task. -/
  | replace (subscriptions : List FeedSubscription)
  /-- `stop`, from another task. -/
  | stop
  /-- What the loop awaits is done and it goes on. -/
  | resume
  /-- The wait ends: something was received, or an event is set. -/
  | wake (received : Bool)
  /-- The socket fails, or what was received raises. -/
  | fail

namespace FeedConnection

/-- After the last message: the snapshot is active and the event is cleared. -/
def settle (s : FeedConnection) (snapshot : List FeedSubscription) : FeedConnection :=
  { s with active := snapshot, changed := false, phase := .parked }

/-- The messages from one collection to another, removals first; there are none for
an empty difference. -/
def deltaMessages (request : FeedRequest) (active desired : List FeedSubscription) :
    Except FeedError (List SubscriptionMessage) := do
  let removed ← subscriptionMessages (without FeedSubscription.key active desired) (request.code + 1)
  let added ← subscriptionMessages (without FeedSubscription.key desired active) request.code
  pure (removed ++ added)

/-- From the loop's head to the next await. -/
def loopHead (request : FeedRequest) (s : FeedConnection) : FeedConnection :=
  if s.stopping then { s with phase := .ended }
  else
    match deltaMessages request s.active s.desired with
    | .error _ => { s with phase := .ended }
    | .ok [] => s.settle s.desired
    | .ok (message :: rest) => { s with phase := .sending message rest s.desired }

def resume (request : FeedRequest) (s : FeedConnection) : FeedConnection :=
  match s.phase with
  | .entering => s.loopHead request
  | .sending message rest snapshot =>
    let sent := { s with subscribed := request.deliver s.subscribed message }
    match rest with
    | [] => sent.settle snapshot
    | next :: rest => { sent with phase := .sending next rest snapshot }
  | .woken stopped => if stopped then { s with phase := .ended } else s.loopHead request
  | .parked | .ended => s

def wake (s : FeedConnection) (received : Bool) : FeedConnection :=
  match s.phase with
  | .parked =>
    if s.changed ∨ s.stopping ∨ received then { s with phase := .woken s.stopping } else s
  | _ => s

end FeedConnection

/-- One step of the loop, or a call of another task. -/
def connectionStep (request : FeedRequest) (s : FeedConnection) : ConnectionEvent → FeedConnection
  | .replace subscriptions =>
    { s with desired := dictBy FeedSubscription.key subscriptions, changed := true }
  | .stop => { s with stopping := true, changed := true }
  | .resume => s.resume request
  | .wake received => s.wake received
  | .fail => { s with phase := .ended }

/-- `_connected` begins; the session may have been told of subscriptions before. -/
def FeedConnection.start (desired : List FeedSubscription) (changed stopping : Bool) :
    FeedConnection where
  desired := desired
  changed := changed
  stopping := stopping

/-- The keys of a collection. -/
def keysOf (subscriptions : List FeedSubscription) : Finset (ℕ × String) :=
  keySet FeedSubscription.key subscriptions

/-- **What is asked of a state**: while the loop waits and no change is announced,
the broker has the keys desired. -/
def FeedConnection.InStep (s : FeedConnection) : Prop :=
  s.phase = .parked → s.changed = false → s.subscribed = keysOf s.desired

/-- The step clears no announcement of other keys: when the last message of a delta
is sent, the keys desired are those of the snapshot. -/
def ClearsNothing (s : FeedConnection) (e : ConnectionEvent) : Prop :=
  ∀ message snapshot, s.phase = .sending message [] snapshot → e = .resume →
    keysOf s.desired = keysOf snapshot

/-! ## What the messages do -/

section Messages

variable {request : FeedRequest} {held : Finset (ℕ × String)}

theorem sortedByKey_perm (subscriptions : List FeedSubscription) :
    (sortedByKey subscriptions).Perm subscriptions :=
  List.perm_insertionSort _ _

theorem keys_messageOf (requestCode : ℕ) (batch : List FeedSubscription) :
    (messageOf requestCode batch).keys = keysOf batch := by
  rw [SubscriptionMessage.keys, messageOf, List.filterMap_map, keysOf, keySet, ← List.filterMap_eq_map]
  congr 1
  refine List.filterMap_congr fun item _ => ?_
  simp only [Function.comp_apply, item.segment_code, Option.map_some]
  rfl

theorem deliver_subscribe (batch : List FeedSubscription) :
    request.deliver held (messageOf request.code batch) = held ∪ keysOf batch := by
  rw [FeedRequest.deliver, keys_messageOf]
  exact if_pos rfl

theorem deliver_unsubscribe (batch : List FeedSubscription) :
    request.deliver held (messageOf (request.code + 1) batch) = held \ keysOf batch := by
  rw [FeedRequest.deliver, keys_messageOf]
  exact (if_neg (Nat.succ_ne_self _)).trans (if_pos rfl)

/-- Every code a session sends is a request code. -/
theorem FeedRequest.code_mem (request : FeedRequest) :
    request.code ∈ [15, 16, 17, 18, 21, 22] ∧ request.code + 1 ∈ [15, 16, 17, 18, 21, 22] := by
  cases request <;> decide

/-- What is sent under a request code. -/
def messagesOf (requestCode : ℕ) (subscriptions : List FeedSubscription) :
    List SubscriptionMessage :=
  (batches 100 (sortedByKey subscriptions)).map (messageOf requestCode)

theorem subscriptionMessages_ok (subscriptions : List FeedSubscription) {requestCode : ℕ}
    (h : requestCode ∈ [15, 16, 17, 18, 21, 22]) :
    subscriptionMessages subscriptions requestCode = .ok (messagesOf requestCode subscriptions) := by
  rw [subscriptionMessages, if_neg (not_not.2 h)]
  rfl

theorem foldl_subscribe (subscriptions : List FeedSubscription) :
    (messagesOf request.code subscriptions).foldl request.deliver held =
      held ∪ keysOf subscriptions := by
  rw [messagesOf, List.foldl_map]
  simp only [deliver_subscribe]
  rw [keysOf, ← keySet_perm _ (sortedByKey_perm subscriptions)]
  exact foldl_union_batches (by decide) _ _

theorem foldl_unsubscribe (subscriptions : List FeedSubscription) :
    (messagesOf (request.code + 1) subscriptions).foldl request.deliver held =
      held \ keysOf subscriptions := by
  rw [messagesOf, List.foldl_map]
  simp only [deliver_unsubscribe]
  rw [keysOf, ← keySet_perm _ (sortedByKey_perm subscriptions)]
  exact foldl_sdiff_batches (by decide) _ _

/-- **A delta, delivered in full, leads from the one collection to the other.** -/
theorem deltaMessages_deliver (request : FeedRequest) (active desired : List FeedSubscription) :
    ∃ messages, FeedConnection.deltaMessages request active desired = .ok messages ∧
      messages.foldl request.deliver (keysOf active) = keysOf desired := by
  obtain ⟨hsubscribe, hunsubscribe⟩ := request.code_mem
  let removals := messagesOf (request.code + 1) (without FeedSubscription.key active desired)
  let additions := messagesOf request.code (without FeedSubscription.key desired active)
  refine ⟨removals ++ additions, ?_, ?_⟩
  · rw [FeedConnection.deltaMessages, subscriptionMessages_ok _ hsubscribe,
      subscriptionMessages_ok _ hunsubscribe]
    rfl
  · rw [List.foldl_append, foldl_unsubscribe, foldl_subscribe]
    exact sdiff_union_delta active desired

end Messages

/-! ## The loop keeps its books -/

/-- What the steps keep: the messages still to be sent lead to the snapshot; outside
of sending the broker has the active keys; and while the loop waits unannounced
these are the keys desired. -/
structure FeedConnection.Sound (request : FeedRequest) (s : FeedConnection) : Prop where
  sending : ∀ message rest snapshot, s.phase = .sending message rest snapshot →
    (message :: rest).foldl request.deliver s.subscribed = keysOf snapshot
  entering : s.phase = .entering → s.subscribed = keysOf s.active
  parked : s.phase = .parked → s.subscribed = keysOf s.active
  woken : ∀ stopped, s.phase = .woken stopped → s.subscribed = keysOf s.active
  current : s.phase = .parked → s.changed = false → keysOf s.desired = keysOf s.active

namespace FeedConnection

variable {request : FeedRequest} {s : FeedConnection}

theorem Sound.inStep (h : s.Sound request) : s.InStep := by
  intro hphase hchanged
  rw [h.parked hphase, h.current hphase hchanged]

theorem sound_start (desired : List FeedSubscription) (changed stopping : Bool) :
    (start desired changed stopping).Sound request where
  sending := nofun
  entering _ := rfl
  parked := nofun
  woken := nofun
  current := nofun

theorem sound_ended (h : s.phase = .ended) : s.Sound request where
  sending _ _ _ hphase := nomatch h.symm.trans hphase
  entering hphase := nomatch h.symm.trans hphase
  parked hphase := nomatch h.symm.trans hphase
  woken _ hphase := nomatch h.symm.trans hphase
  current hphase := nomatch h.symm.trans hphase

theorem sound_settle {snapshot : List FeedSubscription} (hsent : s.subscribed = keysOf snapshot)
    (hkeys : keysOf s.desired = keysOf snapshot) : (s.settle snapshot).Sound request where
  sending := nofun
  entering := nofun
  parked _ := hsent
  woken := nofun
  current _ _ := hkeys

theorem sound_sending {message : SubscriptionMessage} {rest : List SubscriptionMessage}
    {snapshot : List FeedSubscription}
    (h : (message :: rest).foldl request.deliver s.subscribed = keysOf snapshot) :
    ({ s with phase := .sending message rest snapshot } : FeedConnection).Sound request where
  sending _ _ _ hphase := by cases hphase; exact h
  entering := nofun
  parked := nofun
  woken := nofun
  current := nofun

theorem sound_loopHead (h : s.subscribed = keysOf s.active) : (s.loopHead request).Sound request := by
  obtain ⟨messages, hmessages, hdeliver⟩ := deltaMessages_deliver request s.active s.desired
  unfold loopHead
  split_ifs
  · exact sound_ended rfl
  rw [hmessages]
  rw [← h] at hdeliver
  cases messages with
  | nil => exact sound_settle hdeliver rfl
  | cons message rest => exact sound_sending hdeliver

theorem sound_resume (h : s.Sound request) (hok : ClearsNothing s .resume) :
    (s.resume request).Sound request := by
  unfold resume
  cases hphase : s.phase with
  | entering => exact sound_loopHead (h.entering hphase)
  | sending message rest snapshot =>
    have hsent := h.sending _ _ _ hphase
    rw [List.foldl_cons] at hsent
    cases rest with
    | nil => exact sound_settle hsent (hok _ _ hphase rfl)
    | cons next rest =>
      exact sound_sending (s := { s with subscribed := request.deliver s.subscribed message }) hsent
  | parked => exact h
  | woken stopped =>
    cases stopped with
    | true => exact sound_ended rfl
    | false => exact sound_loopHead (h.woken _ hphase)
  | ended => exact h

theorem sound_wake (h : s.Sound request) (received : Bool) : (s.wake received).Sound request := by
  unfold wake
  cases hphase : s.phase with
  | parked =>
    dsimp only
    split_ifs
    · exact ⟨nofun, nofun, nofun, fun _ _ => h.parked hphase, nofun⟩
    · exact h
  | entering | sending | woken | ended => exact h

/-- An announced change leaves the books as they are. -/
theorem Sound.announce (h : s.Sound request) (desired : List FeedSubscription) (stopping : Bool) :
    ({ s with desired := desired, stopping := stopping, changed := true } :
      FeedConnection).Sound request :=
  ⟨h.sending, h.entering, h.parked, h.woken, fun _ hchanged => nomatch hchanged⟩

end FeedConnection

section Runs

open FeedConnection

variable {request : FeedRequest} {s : FeedConnection} {e : ConnectionEvent}

theorem sound_connectionStep (h : s.Sound request) (hok : ClearsNothing s e) :
    (connectionStep request s e).Sound request := by
  cases e with
  | replace subscriptions => exact h.announce _ _
  | stop => exact h.announce _ _
  | resume => exact sound_resume h hok
  | wake received => exact sound_wake h received
  | fail => exact sound_ended rfl

/-- Where the event is cleared over other keys, the next state is out of step. -/
theorem clearsNothing_of_inStep (h : s.Sound request) (hstep : (connectionStep request s e).InStep) :
    ClearsNothing s e := by
  rintro message snapshot hphase rfl
  have hnext : connectionStep request s .resume =
      ({ s with subscribed := request.deliver s.subscribed message }).settle snapshot := by
    rw [connectionStep, resume, hphase]
  rw [hnext] at hstep
  have hsent : request.deliver s.subscribed message = keysOf snapshot := h.sending _ _ _ hphase
  exact (hstep rfl rfl).symm.trans hsent

/-- **No change of subscriptions is lost**, on a connection with any subscriptions
at its start and any interleaving of steps and calls, exactly when the loop never
clears the event over keys other than those it has just sent. -/
theorem no_change_lost_iff (request : FeedRequest) (desired : List FeedSubscription)
    (changed stopping : Bool) (events : List ConnectionEvent) :
    (∀ before after, events = before ++ after →
      (before.foldl (connectionStep request) (.start desired changed stopping)).InStep) ↔
      Run (Guarded ClearsNothing (Steps (connectionStep request)))
        (.start desired changed stopping) events
        (events.foldl (connectionStep request) (.start desired changed stopping)) :=
  guarded_run_invariant_iff (I := FeedConnection.Sound request)
    (FeedConnection.sound_start _ _ _)
    (fun _ h => h.inStep) (fun _ _ h hok => sound_connectionStep h hok)
    (fun _ _ h hstep => clearsNothing_of_inStep h hstep)

/-! ## A change while a message is sent -/

/-- A share of the cash segment. -/
def cashSubscription (securityId : String) : FeedSubscription where
  instrumentId := 0
  exchangeSegment := "NSE_EQ"
  exchangeCode := 1
  securityId := securityId
  segment_code := rfl

/-- The second share is asked for while the message of the first is being sent. -/
def replacedWhileSending : List ConnectionEvent := [
  .resume, .replace [cashSubscription "1", cashSubscription "2"], .resume]

theorem change_lost :
    ¬ (replacedWhileSending.foldl (connectionStep .quote)
      (.start [cashSubscription "1"] true false)).InStep := by
  intro h
  have hkeys := h (by decide +kernel) (by decide +kernel)
  revert hkeys
  decide +kernel

end Runs

end GnkAlgo
