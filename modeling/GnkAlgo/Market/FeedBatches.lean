import GnkAlgo.Market.FeedConnection

/-!
# What one connection sends

The messages of `DhanFeedSession._connected`, step by step of its loop: for each
snapshot of the desired subscriptions the removals, then the additions, in messages
of at most a hundred instruments.

* `LoopStep`, `journalStep` — a connection with the snapshots it has taken and what
  it has sent for each;
* `LoopStep.Proper` — what is sent for a snapshot is the beginning of a delta;
* `Journaled` — the books of a connection, along a run;
* `batches_fold` — the broker, told all that was sent, has the last snapshot.
-/

namespace GnkAlgo

open Deltas Transition

/-! ## The journal -/

/-- One round of the loop: the snapshot, and the messages sent for it so far. -/
structure LoopStep where
  snapshot : List FeedSubscription
  sent : List SubscriptionMessage := []
  deriving DecidableEq

/-- The snapshot the loop takes when it goes on. -/
def FeedConnection.taken (s : FeedConnection) : ConnectionEvent → Option (List FeedSubscription)
  | .resume =>
    match s.phase with
    | .entering | .woken false => if s.stopping then none else some s.desired
    | _ => none
  | _ => none

/-- The message whose sending is done when the loop goes on. -/
def FeedConnection.delivered (s : FeedConnection) : ConnectionEvent → Option SubscriptionMessage
  | .resume =>
    match s.phase with
    | .sending message _ _ => some message
    | _ => none
  | _ => none

/-- A message more in the last round. -/
def noteSent (message : SubscriptionMessage) : List LoopStep → List LoopStep
  | [] => []
  | [step] => [{ step with sent := step.sent ++ [message] }]
  | step :: steps => step :: noteSent message steps

/-- A connection and its rounds. -/
structure FeedJournal where
  connection : FeedConnection
  steps : List LoopStep := []
  deriving DecidableEq

def journalStep (request : FeedRequest) (s : FeedJournal) (e : ConnectionEvent) : FeedJournal where
  connection := connectionStep request s.connection e
  steps :=
    match s.connection.taken e, s.connection.delivered e with
    | some snapshot, _ => s.steps ++ [{ snapshot := snapshot }]
    | none, some message => noteSent message s.steps
    | none, none => s.steps

/-- What the broker has after the messages of some rounds. -/
def brokerHolds (request : FeedRequest) (steps : List LoopStep) : Finset (ℕ × String) :=
  (steps.flatMap LoopStep.sent).foldl request.deliver ∅

/-- The keys a message names, in its order. -/
def SubscriptionMessage.keyList (m : SubscriptionMessage) : List (ℕ × String) :=
  m.instrumentList.filterMap fun (segment, securityId) =>
    (segmentCodes.lookup segment).map fun code => (code, securityId)

/-- The keys named by the messages of a round with a request code. -/
def LoopStep.keysWith (step : LoopStep) (requestCode : ℕ) : List (ℕ × String) :=
  (step.sent.filter (·.requestCode = requestCode)).flatMap SubscriptionMessage.keyList

/-! ## The messages of a delta -/

section Delta

variable {request : FeedRequest} {active desired : List FeedSubscription}

theorem keyList_messageOf (requestCode : ℕ) (batch : List FeedSubscription) :
    (messageOf requestCode batch).keyList = batch.map FeedSubscription.key := by
  rw [SubscriptionMessage.keyList, messageOf, List.filterMap_map, ← List.filterMap_eq_map]
  refine List.filterMap_congr fun item _ => ?_
  simp only [Function.comp_apply, item.segment_code, Option.map_some]
  rfl

/-- The messages name every key of the collection, and as often as it does. -/
theorem keyList_messagesOf (requestCode : ℕ) (subscriptions : List FeedSubscription) :
    ((messagesOf requestCode subscriptions).flatMap SubscriptionMessage.keyList).Perm
      (subscriptions.map FeedSubscription.key) := by
  have hkeys : (messagesOf requestCode subscriptions).flatMap SubscriptionMessage.keyList =
      (sortedByKey subscriptions).map FeedSubscription.key := by
    rw [messagesOf, List.flatMap_map]
    simp only [keyList_messageOf]
    rw [← List.map_flatMap, List.flatMap_id', flatten_batches (by decide)]
  rw [hkeys]
  exact (sortedByKey_perm subscriptions).map _

/-- **The size of a message.** -/
theorem size_of_mem_messagesOf {requestCode : ℕ} {subscriptions : List FeedSubscription}
    {m : SubscriptionMessage} (h : m ∈ messagesOf requestCode subscriptions) :
    m.instrumentCount = m.instrumentList.length ∧
      1 ≤ m.instrumentList.length ∧ m.instrumentList.length ≤ 100 := by
  obtain ⟨batch, hbatch, rfl⟩ := List.mem_map.1 h
  have hlength : (messageOf requestCode batch).instrumentList.length = batch.length :=
    List.length_map _
  rw [hlength]
  exact ⟨rfl, length_of_mem_batches (by decide) hbatch⟩

theorem requestCode_of_mem_messagesOf {requestCode : ℕ} {subscriptions : List FeedSubscription}
    {m : SubscriptionMessage} (h : m ∈ messagesOf requestCode subscriptions) :
    m.requestCode = requestCode := by
  obtain ⟨batch, -, rfl⟩ := List.mem_map.1 h
  rfl

theorem filter_messagesOf_self (requestCode : ℕ) (subscriptions : List FeedSubscription) :
    (messagesOf requestCode subscriptions).filter (·.requestCode = requestCode) =
      messagesOf requestCode subscriptions :=
  List.filter_eq_self.2 fun _ hm => decide_eq_true (requestCode_of_mem_messagesOf hm)

theorem filter_messagesOf_of_ne {requestCode other : ℕ} (h : requestCode ≠ other)
    (subscriptions : List FeedSubscription) :
    (messagesOf requestCode subscriptions).filter (·.requestCode = other) = [] :=
  List.filter_eq_nil_iff.2 fun _ hm heq =>
    h ((requestCode_of_mem_messagesOf hm).symm.trans (of_decide_eq_true heq))

/-- The removals, then the additions. -/
theorem deltaMessages_eq (request : FeedRequest) (active desired : List FeedSubscription) :
    FeedConnection.deltaMessages request active desired =
      .ok (messagesOf (request.code + 1) (without FeedSubscription.key active desired) ++
        messagesOf request.code (without FeedSubscription.key desired active)) := by
  obtain ⟨hsubscribe, hunsubscribe⟩ := request.code_mem
  rw [FeedConnection.deltaMessages, subscriptionMessages_ok _ hsubscribe,
    subscriptionMessages_ok _ hunsubscribe]
  rfl

end Delta

/-! ## Rounds -/

/-- What is sent in a round is the beginning of a delta. -/
structure LoopStep.Proper (request : FeedRequest) (step : LoopStep) : Prop where
  nodup : (step.snapshot.map FeedSubscription.key).Nodup
  beginning : ∃ active rest, (active.map FeedSubscription.key).Nodup ∧
    FeedConnection.deltaMessages request active step.snapshot = .ok (step.sent ++ rest)

section Rounds

variable {request : FeedRequest} {step : LoopStep}

/-- **A round's messages** carry from one to a hundred instruments, and say how many. -/
theorem LoopStep.Proper.size (h : step.Proper request) {m : SubscriptionMessage}
    (hm : m ∈ step.sent) : m.instrumentCount = m.instrumentList.length ∧
      1 ≤ m.instrumentList.length ∧ m.instrumentList.length ≤ 100 := by
  obtain ⟨active, rest, -, hdelta⟩ := h.beginning
  rw [deltaMessages_eq] at hdelta
  have hall := Except.ok.inj hdelta
  have hmem := hall ▸ List.mem_append_left rest hm
  rcases List.mem_append.1 hmem with hremoval | haddition
  · exact size_of_mem_messagesOf hremoval
  · exact size_of_mem_messagesOf haddition

/-- What a round names under a request code is the beginning of what its delta does. -/
theorem LoopStep.Proper.keysWith_prefix (h : step.Proper request) :
    ∃ active, (active.map FeedSubscription.key).Nodup ∧
      step.keysWith request.code <+: (messagesOf request.code
        (without FeedSubscription.key step.snapshot active)).flatMap SubscriptionMessage.keyList ∧
      step.keysWith (request.code + 1) <+: (messagesOf (request.code + 1)
        (without FeedSubscription.key active step.snapshot)).flatMap
          SubscriptionMessage.keyList := by
  obtain ⟨active, rest, hactive, hdelta⟩ := h.beginning
  rw [deltaMessages_eq] at hdelta
  have hall := Except.ok.inj hdelta
  have hfilter : ∀ code, step.keysWith code <+: ((messagesOf (request.code + 1)
      (without FeedSubscription.key active step.snapshot) ++ messagesOf request.code
        (without FeedSubscription.key step.snapshot active)).filter
          (·.requestCode = code)).flatMap SubscriptionMessage.keyList := by
    intro code
    rw [hall, List.filter_append, List.flatMap_append]
    exact List.prefix_append _ _
  refine ⟨active, hactive, ?_, ?_⟩
  · have hsubscribed := hfilter request.code
    rwa [List.filter_append, filter_messagesOf_of_ne (Nat.succ_ne_self _), filter_messagesOf_self,
      List.nil_append] at hsubscribed
  · have hunsubscribed := hfilter (request.code + 1)
    rwa [List.filter_append, filter_messagesOf_self,
      filter_messagesOf_of_ne (Nat.succ_ne_self _).symm, List.append_nil] at hunsubscribed

/-- **A round names no key twice**, neither to subscribe it nor to do both. -/
theorem LoopStep.Proper.keys_once (h : step.Proper request) :
    (step.keysWith request.code).Nodup ∧
      List.Disjoint (step.keysWith request.code) (step.keysWith (request.code + 1)) := by
  obtain ⟨active, hactive, hsubscribed, hunsubscribed⟩ := h.keysWith_prefix
  have hadded := keyList_messagesOf request.code
    (without FeedSubscription.key step.snapshot active)
  have hremoved := keyList_messagesOf (request.code + 1)
    (without FeedSubscription.key active step.snapshot)
  refine ⟨(hadded.nodup_iff.2 (nodup_without h.nodup active)).sublist hsubscribed.sublist, ?_⟩
  intro k hk hk'
  refine disjoint_without step.snapshot active (hadded.subset (hsubscribed.subset hk)) ?_
  exact hremoved.subset (hunsubscribed.subset hk')

theorem noteSent_concat (message : SubscriptionMessage) (steps : List LoopStep) (step : LoopStep) :
    noteSent message (steps ++ [step]) =
      steps ++ [{ step with sent := step.sent ++ [message] }] := by
  induction steps with
  | nil => rfl
  | cons first steps ih =>
    cases steps with
    | nil => rfl
    | cons second steps =>
      rw [List.cons_append, List.cons_append, noteSent, ← List.cons_append, ih]
      · rfl
      · exact fun h => nomatch h

theorem brokerHolds_concat (steps : List LoopStep) (step : LoopStep) :
    brokerHolds request (steps ++ [step]) =
      step.sent.foldl request.deliver (brokerHolds request steps) := by
  unfold brokerHolds
  rw [List.flatMap_append, List.foldl_append, List.flatMap_singleton]

/-- A new round has sent nothing. -/
theorem brokerHolds_new (steps : List LoopStep) (snapshot : List FeedSubscription) :
    brokerHolds request (steps ++ [{ snapshot := snapshot }]) = brokerHolds request steps :=
  brokerHolds_concat steps _

theorem brokerHolds_noteSent (message : SubscriptionMessage) (steps : List LoopStep)
    (step : LoopStep) : brokerHolds request (noteSent message (steps ++ [step])) =
      request.deliver (brokerHolds request (steps ++ [step])) message := by
  rw [noteSent_concat, brokerHolds_concat, brokerHolds_concat, List.foldl_concat]

end Rounds

/-! ## The books of a connection -/

/-- At the loop's head, waiting or woken: nothing is being sent. -/
def LoopPhase.isSettled : LoopPhase → Bool
  | .entering | .parked | .woken _ => true
  | .sending _ _ _ | .ended => false

/-- What the steps keep: the desired and the active subscriptions are dictionaries,
the broker has what was sent, and what is left to send completes the last round. -/
structure Journaled (request : FeedRequest) (j : FeedJournal) : Prop where
  desired : (j.connection.desired.map FeedSubscription.key).Nodup
  active : (j.connection.active.map FeedSubscription.key).Nodup
  replayed : brokerHolds request j.steps = j.connection.subscribed
  proper : ∀ step ∈ j.steps, step.Proper request
  settled : j.connection.phase.isSettled → j.connection.subscribed = keysOf j.connection.active
  waiting : j.connection.phase = .parked →
    ∃ before step, j.steps = before ++ [step] ∧ step.snapshot = j.connection.active
  sending : ∀ message rest snapshot, j.connection.phase = .sending message rest snapshot →
    (message :: rest).foldl request.deliver j.connection.subscribed = keysOf snapshot ∧
    (snapshot.map FeedSubscription.key).Nodup ∧
    ∃ before step, j.steps = before ++ [step] ∧ step.snapshot = snapshot ∧
      ∃ active, (active.map FeedSubscription.key).Nodup ∧
        FeedConnection.deltaMessages request active snapshot = .ok (step.sent ++ message :: rest)

section Books

variable {request : FeedRequest} {j : FeedJournal}

theorem journaled_start (request : FeedRequest) (subscriptions : List FeedSubscription)
    (changed stopping : Bool) :
    Journaled request ⟨.start (dictBy FeedSubscription.key subscriptions) changed stopping,
      []⟩ where
  desired := nodup_dictBy subscriptions
  active := List.nodup_nil
  replayed := rfl
  proper := List.forall_mem_nil _
  settled _ := rfl
  waiting := nofun
  sending := nofun

/-- A connection that has ended stays as it is. -/
theorem Journaled.ended (h : Journaled request j) :
    Journaled request ⟨{ j.connection with phase := .ended }, j.steps⟩ where
  desired := h.desired
  active := h.active
  replayed := h.replayed
  proper := h.proper
  settled := nofun
  waiting := nofun
  sending := nofun

/-- A new round: its delta is to be sent, or there is none. -/
theorem Journaled.loopHead (h : Journaled request j) (hsettled : j.connection.phase.isSettled)
    (hrunning : ¬ j.connection.stopping) :
    Journaled request ⟨j.connection.loopHead request,
      j.steps ++ [{ snapshot := j.connection.desired }]⟩ := by
  obtain ⟨messages, hmessages, hdeliver⟩ :=
    deltaMessages_deliver request j.connection.active j.connection.desired
  have hreplayed : brokerHolds request (j.steps ++ [{ snapshot := j.connection.desired }]) =
      j.connection.subscribed := (brokerHolds_new j.steps j.connection.desired).trans h.replayed
  have hproper : ∀ step ∈ j.steps ++ [{ snapshot := j.connection.desired }],
      step.Proper request := by
    intro step hstep
    rcases List.mem_append.1 hstep with hold | hnew
    · exact h.proper step hold
    · rw [List.mem_singleton.1 hnew]
      exact ⟨h.desired, j.connection.active, messages, h.active, hmessages⟩
  rw [← h.settled hsettled] at hdeliver
  unfold FeedConnection.loopHead
  rw [if_neg hrunning, hmessages]
  cases messages with
  | nil =>
    exact {
      desired := h.desired
      active := h.desired
      replayed := hreplayed
      proper := hproper
      settled := fun _ => hdeliver
      waiting := fun _ => ⟨j.steps, _, rfl, rfl⟩
      sending := nofun }
  | cons message rest =>
    exact {
      desired := h.desired
      active := h.active
      replayed := hreplayed
      proper := hproper
      settled := nofun
      waiting := nofun
      sending := by
        rintro _ _ _ ⟨⟩
        exact ⟨hdeliver, h.desired, j.steps, _, rfl, rfl, j.connection.active, h.active,
          hmessages⟩ }

/-- A message more: it is noted in the last round. -/
theorem Journaled.send (h : Journaled request j) {message : SubscriptionMessage}
    {rest : List SubscriptionMessage} {snapshot : List FeedSubscription}
    (hphase : j.connection.phase = .sending message rest snapshot) :
    Journaled request ⟨j.connection.resume request, noteSent message j.steps⟩ := by
  obtain ⟨hdeliver, hsnapshot, before, step, hsteps, rfl, active, hactive, hdelta⟩ :=
    h.sending _ _ _ hphase
  have hnoted : noteSent message j.steps =
      before ++ [{ step with sent := step.sent ++ [message] }] := by
    rw [hsteps, noteSent_concat]
  have hreplayed : brokerHolds request (noteSent message j.steps) =
      request.deliver j.connection.subscribed message := by
    rw [← h.replayed, hsteps, brokerHolds_noteSent]
  rw [List.append_cons] at hdelta
  have hproper : ∀ other ∈ noteSent message j.steps, other.Proper request := by
    intro other hother
    rw [hnoted] at hother
    rcases List.mem_append.1 hother with hold | hnew
    · exact h.proper other (hsteps ▸ List.mem_append_left _ hold)
    · rw [List.mem_singleton.1 hnew]
      exact ⟨hsnapshot, active, rest, hactive, hdelta⟩
  unfold FeedConnection.resume
  rw [hphase]
  cases rest with
  | nil =>
    exact {
      desired := h.desired
      active := hsnapshot
      replayed := hreplayed
      proper := hproper
      settled := fun _ => hdeliver
      waiting := fun _ => ⟨before, _, hnoted, rfl⟩
      sending := nofun }
  | cons next rest =>
    exact {
      desired := h.desired
      active := h.active
      replayed := hreplayed
      proper := hproper
      settled := nofun
      waiting := nofun
      sending := by
        rintro _ _ _ ⟨⟩
        exact ⟨hdeliver, hsnapshot, before, _, hnoted, rfl, active, hactive, hdelta⟩ }

theorem Journaled.wake (h : Journaled request j) (received : Bool) :
    Journaled request ⟨j.connection.wake received, j.steps⟩ := by
  unfold FeedConnection.wake
  cases hphase : j.connection.phase with
  | parked =>
    dsimp only
    split_ifs
    · exact {
        desired := h.desired
        active := h.active
        replayed := h.replayed
        proper := h.proper
        settled := fun _ => h.settled (by rw [hphase]; rfl)
        waiting := nofun
        sending := nofun }
    · exact h
  | entering | sending | woken | ended => exact h

/-- At the loop's head a round begins, unless the session is stopping. -/
theorem Journaled.head (h : Journaled request j) (hsettled : j.connection.phase.isSettled) :
    Journaled request ⟨j.connection.loopHead request, if j.connection.stopping then j.steps
      else j.steps ++ [{ snapshot := j.connection.desired }]⟩ := by
  split_ifs with hstopping
  · unfold FeedConnection.loopHead
    rw [if_pos hstopping]
    exact h.ended
  · exact h.loopHead hsettled hstopping

/-- At the loop's head the journal takes the snapshot. -/
theorem journalStep_head
    (hphase : j.connection.phase = .entering ∨ j.connection.phase = .woken false) :
    journalStep request j .resume = ⟨j.connection.loopHead request,
      if j.connection.stopping then j.steps
      else j.steps ++ [{ snapshot := j.connection.desired }]⟩ := by
  have htaken : j.connection.taken .resume =
      if j.connection.stopping then none else some j.connection.desired := by
    unfold FeedConnection.taken
    rcases hphase with hphase | hphase <;> rw [hphase]
  have hdelivered : j.connection.delivered .resume = none := by
    unfold FeedConnection.delivered
    rcases hphase with hphase | hphase <;> rw [hphase]
  have hconnection : connectionStep request j.connection .resume =
      j.connection.loopHead request := by
    unfold connectionStep FeedConnection.resume
    rcases hphase with hphase | hphase <;> rw [hphase]
    rfl
  unfold journalStep
  rw [htaken, hdelivered, hconnection]
  split_ifs <;> rfl

/-- Away from the loop's head only the sending of a message is noted. -/
theorem journalStep_sending {message : SubscriptionMessage} {rest : List SubscriptionMessage}
    {snapshot : List FeedSubscription}
    (hphase : j.connection.phase = .sending message rest snapshot) :
    journalStep request j .resume =
      ⟨j.connection.resume request, noteSent message j.steps⟩ := by
  unfold journalStep FeedConnection.taken FeedConnection.delivered
  rw [hphase]
  rfl

/-- **The loop goes on**: a round begins, a message is noted, or nothing is sent. -/
theorem Journaled.resume (h : Journaled request j) :
    Journaled request (journalStep request j .resume) := by
  cases hphase : j.connection.phase with
  | entering =>
    rw [journalStep_head (.inl hphase)]
    exact h.head (by rw [hphase]; rfl)
  | sending message rest snapshot =>
    rw [journalStep_sending hphase]
    exact h.send hphase
  | parked =>
    have hquiet : journalStep request j .resume = j := by
      unfold journalStep FeedConnection.taken FeedConnection.delivered connectionStep
        FeedConnection.resume
      rw [hphase]
    rwa [hquiet]
  | woken stopped =>
    cases stopped with
    | true =>
      have hended : journalStep request j .resume =
          ⟨{ j.connection with phase := .ended }, j.steps⟩ := by
        unfold journalStep FeedConnection.taken FeedConnection.delivered connectionStep
          FeedConnection.resume
        rw [hphase]
        rfl
      rw [hended]
      exact h.ended
    | false =>
      rw [journalStep_head (.inr hphase)]
      exact h.head (by rw [hphase]; rfl)
  | ended =>
    have hquiet : journalStep request j .resume = j := by
      unfold journalStep FeedConnection.taken FeedConnection.delivered connectionStep
        FeedConnection.resume
      rw [hphase]
    rwa [hquiet]

theorem Journaled.step (h : Journaled request j) (e : ConnectionEvent) :
    Journaled request (journalStep request j e) := by
  cases e with
  | replace subscriptions =>
    exact { h with desired := nodup_dictBy subscriptions }
  | stop => exact { h with }
  | resume => exact h.resume
  | wake received => exact h.wake received
  | fail => exact h.ended

end Books

/-- **What one connection sends.**  For any subscriptions at its start and any
interleaving of steps and calls: whenever the loop waits, the broker, told all that
was sent since the connection began, has exactly the keys of the last snapshot;
every message carries from one to a hundred instruments and says how many; and in no
round is a key subscribed twice, or both subscribed and unsubscribed. -/
theorem batches_fold (request : FeedRequest) (subscriptions : List FeedSubscription)
    (changed stopping : Bool) (events : List ConnectionEvent) :
    let j := events.foldl (journalStep request)
      ⟨.start (dictBy FeedSubscription.key subscriptions) changed stopping, []⟩
    (j.connection.phase = .parked → ∃ before step, j.steps = before ++ [step] ∧
      brokerHolds request j.steps = keysOf step.snapshot) ∧
    ∀ step ∈ j.steps,
      (∀ m ∈ step.sent, m.instrumentCount = m.instrumentList.length ∧
        1 ≤ m.instrumentList.length ∧ m.instrumentList.length ≤ 100) ∧
      (step.keysWith request.code).Nodup ∧
      List.Disjoint (step.keysWith request.code) (step.keysWith (request.code + 1)) := by
  intro j
  have hjournaled : Journaled request j :=
    (run_foldl (journalStep request) _ events).invariant
      (journaled_start request subscriptions changed stopping)
      fun _ e _ h hstep => hstep ▸ h.step e
  refine ⟨fun hparked => ?_, fun step hstep => ?_⟩
  · obtain ⟨before, step, hsteps, hsnapshot⟩ := hjournaled.waiting hparked
    refine ⟨before, step, hsteps, ?_⟩
    rw [hjournaled.replayed, hsnapshot]
    exact hjournaled.settled (by rw [hparked]; rfl)
  · have hproper := hjournaled.proper step hstep
    exact ⟨fun m => hproper.size, hproper.keys_once⟩

end GnkAlgo
