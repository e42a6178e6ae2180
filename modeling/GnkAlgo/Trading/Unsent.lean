import GnkAlgo.Market.FeedSessions
import GnkAlgo.Trading.OrderRuns

/-!
# Placements that fail before the request

A live placement commits its order PENDING, and the adapter looks for the key of
the instrument at Dhan after that.  Where there is none it raises, and nothing
handles what it raises: the order stays as it is.  It also stays open where the HTTP
client raises before the request leaves: PENDING, or UNKNOWN where the client could
not connect.

* `HasDhanKey`, `dhanSubscription_isOk_iff` — the instruments that have a key, over
  all shapes of their token;
* `placeInstrument`, `RequestIssued` — a live placement, and how far it gets;
* `placeInstrument_unsent` — what one that stops short of its request leaves;
* `unsent_leaves_none_iff` — a placement that fails before its request leaves no
  open order exactly when a check refuses it first, or else the instrument has a key
  and the request leaves.
-/

namespace GnkAlgo

/-! ## The key of an instrument -/

section Key

variable (lib : FeedLibraries) (instrument : FeedInstrument)

/-- The security id a token carries. -/
def BrokerToken.securityId : BrokerToken → Option String
  | .object fields => lastField fields ["security_id", "securityId"] "token"
  | .scalar value => some value.text
  | .none => Option.none

/-- The segment of an instrument: that of its token, or else one derived from
exchange and segment. -/
def tokenSegment : Except FeedError String :=
  match instrument.token with
  | .object fields =>
    match firstTrue fields ["exchange_segment", "exchangeSegment"] with
    | some segment => .ok (lib.upper segment)
    | none => (derivedSegment lib instrument).map lib.upper
  | _ => derivedSegment lib instrument

/-- The instrument has a security id that is not blank, and a segment that Dhan
knows. -/
structure HasDhanKey : Prop where
  securityId : ∃ id ∈ instrument.token.securityId, lib.strip id ≠ ""
  segment : ∃ segment, tokenSegment lib instrument = .ok segment ∧
    (segmentCodes.lookup segment).isSome

/-- `dhan_subscription` from the two values on. -/
def subscriptionOf (securityId : Option String) (segment : String) :
    Except FeedError DhanSubscription :=
  match securityId.filter fun text => lib.strip text ≠ "" with
  | none => throw (.protocol s!"Instrument {instrument.id} has no Dhan security ID")
  | some securityId =>
    match segmentCodes.lookup segment with
    | none => throw (.protocol s!"Unsupported Dhan exchange segment: {segment}")
    | some code => pure ⟨instrument.id, segment, code, securityId⟩

theorem dhanSubscription_eq : dhanSubscription lib instrument =
    tokenSegment lib instrument >>= subscriptionOf lib instrument instrument.token.securityId := by
  unfold dhanSubscription tokenSegment
  cases instrument.token with
  | none => cases derivedSegment lib instrument <;> rfl
  | scalar value => cases derivedSegment lib instrument <;> rfl
  | object fields =>
    dsimp only
    cases firstTrue fields ["exchange_segment", "exchangeSegment"] with
    | some segment => rfl
    | none => cases derivedSegment lib instrument <;> rfl

theorem subscriptionOf_isOk {securityId : Option String} {segment : String} :
    (subscriptionOf lib instrument securityId segment).isOk ↔
      (∃ id ∈ securityId, lib.strip id ≠ "") ∧ (segmentCodes.lookup segment).isSome := by
  unfold subscriptionOf
  cases hid : securityId.filter fun text => lib.strip text ≠ "" with
  | none =>
    refine iff_of_false Bool.false_ne_true ?_
    rintro ⟨⟨id, hmem, hblank⟩, -⟩
    have := Option.filter_eq_none_iff.1 hid id hmem
    simp [hblank] at this
  | some id =>
    obtain ⟨hmem, hblank⟩ := Option.filter_eq_some_iff.1 hid
    have hsome : ∃ id ∈ securityId, lib.strip id ≠ "" := ⟨id, hmem, by simpa using hblank⟩
    cases hcode : segmentCodes.lookup segment with
    | none => exact iff_of_false Bool.false_ne_true fun h => absurd h.2 Bool.false_ne_true
    | some code => exact iff_of_true rfl ⟨hsome, rfl⟩

/-- **The instruments of the feed and of live orders**: `dhan_subscription` finds
the key of those that have one, and raises for all others. -/
theorem dhanSubscription_isOk_iff :
    (dhanSubscription lib instrument).isOk ↔ HasDhanKey lib instrument := by
  rw [dhanSubscription_eq]
  cases hsegment : tokenSegment lib instrument with
  | error e =>
    refine iff_of_false Bool.false_ne_true fun h => ?_
    obtain ⟨segment, hok, -⟩ := h.segment
    rw [hsegment] at hok
    cases hok
  | ok segment =>
    change (subscriptionOf lib instrument instrument.token.securityId segment).isOk ↔ _
    rw [subscriptionOf_isOk]
    constructor
    · rintro ⟨hid, hcode⟩
      exact ⟨hid, segment, hsegment, hcode⟩
    · rintro ⟨hid, segment', hsegment', hcode⟩
      rw [hsegment] at hsegment'
      obtain rfl := Except.ok.inj hsegment'
      exact ⟨hid, hcode⟩

end Key

/-! ## A placement that sends nothing -/

section Unsent

variable (lib : FeedLibraries) (settings : Settings) (now later : Time) (s : Store) (userId : Uuid)
  (instrument : FeedInstrument) (values : OrderValues) (quote : Option NormalizedQuote)
  (outcome : HttpOutcome)

/-- `OrderManager.place` on an instrument. -/
def placeInstrument : Store × Except Raised TradingOrder :=
  place settings now later s userId instrument.id values quote
    (dhanSubscription lib instrument).isOk outcome

/-- The placement issues its request: it comes to the adapter with a committed order,
the adapter finds the key of the instrument, and the HTTP client sends. -/
def RequestIssued : Prop :=
  (∃ o, (placeBegin settings now s userId instrument.id values quote).2 = .awaiting o) ∧
    (dhanSubscription lib instrument).isOk ∧ outcome.sent

/-- A live placement raises, and no request has been issued. -/
def FailsUnsent : Prop :=
  settings.tradingMode = .live ∧
  ¬ RequestIssued lib settings now s userId instrument values quote outcome ∧
  ∃ e, (placeInstrument lib settings now later s userId instrument values quote outcome).2 =
    .error e

/-- No order is new and open, and the user has as many open orders as before. -/
structure NoNewOpenOrder (s t : Store) (userId : Uuid) : Prop where
  settled : ∀ o ∈ t.orders, o ∉ s.orders → o.status ∉ openOrderStatuses
  openOrders : openOrderCount t.toDatabase userId = openOrderCount s.toDatabase userId

variable {s userId}

theorem NoNewOpenOrder.of_sameTrading {t : Store} (h : s.SameTrading t) :
    NoNewOpenOrder s t userId := by
  refine ⟨fun o ho hnew => absurd (h.orders ▸ ho) hnew, ?_⟩
  rw [openOrderCount, openOrderCount, h.orders]

/-- A new row with an open status. -/
theorem not_noNewOpenOrder_of_insert {t : Store} {o : TradingOrder} (hid : o.id = s.nextUuid)
    (hopen : o.status ∈ openOrderStatuses) (ht : t.toDatabase = s.toDatabase.insertOrder o) :
    ¬ NoNewOpenOrder s t userId := by
  intro h
  have hmem : o ∈ t.orders := by
    rw [ht]
    exact List.mem_append_right _ (List.mem_singleton.2 rfl)
  refine h.settled o hmem (fun hold => ?_) hopen
  exact absurd (s.valid.orderUuids o hold) (by rw [hid]; exact lt_irrefl _)

variable {settings now values quote instrument outcome}

/-- What the adapter makes of a request that has not left: no answer. -/
theorem dhanPlace_unsent {subscribed : Bool} (h : ¬ (subscribed ∧ outcome.sent)) :
    dhanPlace subscribed outcome = .escaped ∨
      ∃ code, dhanPlace subscribed outcome = .error ⟨code, true⟩ := by
  unfold dhanPlace
  cases subscribed with
  | false => exact Or.inl rfl
  | true =>
    cases outcome with
    | network sent => exact Or.inr ⟨_, rfl⟩
    | exception sent => exact Or.inl rfl
    | response statusCode body => exact absurd ⟨rfl, rfl⟩ h

/-- The order of a placement without an answer stays open. -/
theorem placeFinish_unanswered {o : TradingOrder} {answer : AdapterResult}
    (hpending : o.status = .pending)
    (h : answer = .escaped ∨ ∃ code, answer = .error ⟨code, true⟩) :
    (∃ e, (placeFinish later o answer).2 = .error e) ∧
      ((placeFinish later o answer).1.getD o).status ∈ openOrderStatuses := by
  rcases h with rfl | ⟨code, rfl⟩
  · refine ⟨⟨_, rfl⟩, ?_⟩
    show o.status ∈ openOrderStatuses
    rw [hpending]
    decide
  · refine ⟨⟨_, rfl⟩, ?_⟩
    show OrderStatus.unknown ∈ openOrderStatuses
    decide

/-- Where the checks pass, the placement comes to the adapter with its order. -/
theorem placeBegin_of_guards
    (hguards : PlaceGuards settings now s userId instrument.id values quote) :
    ∃ connectionId t, t.toDatabase = s.toDatabase.insertOrder
        (liveOrder s.nextUuid userId instrument.id connectionId values now) ∧
      placeBegin settings now s userId instrument.id values quote =
        (t, .awaiting (liveOrder s.nextUuid userId instrument.id connectionId values now)) := by
  rcases placeBegin_cases settings now s userId instrument.id values quote with
    ⟨hmode, -⟩ | ⟨hnot, -⟩ | ⟨-, h⟩
  · exact absurd (hmode.symm.trans hguards.mode) (by decide)
  · exact absurd hguards hnot
  · exact h

/-- **A placement that stops short of its request** raises, and its order stays open. -/
theorem placeInstrument_unsent
    (hguards : PlaceGuards settings now s userId instrument.id values quote)
    (hunsent : ¬ ((dhanSubscription lib instrument).isOk ∧ outcome.sent)) :
    FailsUnsent lib settings now later s userId instrument values quote outcome ∧
      ¬ NoNewOpenOrder s
        (placeInstrument lib settings now later s userId instrument values quote outcome).1
        userId := by
  obtain ⟨connectionId, t, ht, hbegin⟩ := placeBegin_of_guards hguards
  have hmem : liveOrder s.nextUuid userId instrument.id connectionId values now ∈ t.orders := by
    rw [ht]
    exact List.mem_append_right _ (List.mem_singleton.2 rfl)
  obtain ⟨⟨e, herror⟩, hopen⟩ := placeFinish_unanswered later
    (o := liveOrder s.nextUuid userId instrument.id connectionId values now) rfl
    (dhanPlace_unsent hunsent)
  have hresult : placeInstrument lib settings now later s userId instrument values quote outcome =
      t.finish (liveOrder s.nextUuid userId instrument.id connectionId values now)
        (placeFinish later (liveOrder s.nextUuid userId instrument.id connectionId values now)
          (dhanPlace (dhanSubscription lib instrument).isOk outcome)) := by
    unfold placeInstrument place
    rw [hbegin]
  rw [hresult]
  refine ⟨⟨hguards.mode, fun hissued => hunsent hissued.2, e, ?_⟩, ?_⟩
  · rw [hresult, ← herror]
    unfold Store.finish
    split <;> rfl
  · refine not_noNewOpenOrder_of_insert (placeFinish_id.trans rfl) hopen ?_
    rw [Store.finish_toDatabase hmem placeFinish_rewrites, ht]
    exact s.valid.setOrder_insertOrder rfl placeFinish_id

variable (s userId settings now values quote instrument outcome)

/-- **A placement that fails before its request** leaves no new open order exactly
where one of the checks before the row is created refuses, or else the instrument has
a key at Dhan and the HTTP client sends. -/
theorem unsent_leaves_none_iff :
    (FailsUnsent lib settings now later s userId instrument values quote outcome →
      NoNewOpenOrder s
        (placeInstrument lib settings now later s userId instrument values quote outcome).1
        userId) ↔
    (HasDhanKey lib instrument ∧ outcome.sent) ∨
      ¬ PlaceGuards settings now s userId instrument.id values quote := by
  rw [← dhanSubscription_isOk_iff]
  by_cases hguards : PlaceGuards settings now s userId instrument.id values quote
  · rw [or_iff_left (not_not.2 hguards)]
    by_cases hsent : (dhanSubscription lib instrument).isOk ∧ outcome.sent
    · obtain ⟨connectionId, t, -, hbegin⟩ := placeBegin_of_guards hguards
      refine iff_of_true (fun ⟨_, hunsent, _⟩ => ?_) hsent
      exact absurd ⟨⟨_, by rw [hbegin]⟩, hsent⟩ hunsent
    · obtain ⟨hfails, hnew⟩ := placeInstrument_unsent lib later hguards hsent
      exact iff_of_false (fun h => hnew (h hfails)) hsent
  · refine iff_of_true (fun ⟨hlive, _⟩ => ?_) (Or.inr hguards)
    rcases place_cases settings now later s userId instrument.id values quote
      (dhanSubscription lib instrument).isOk outcome with ⟨hmode, -⟩ | ⟨-, hsame⟩ | ⟨h, -⟩
    · exact absurd (hmode.symm.trans hlive) (by decide)
    · exact .of_sameTrading hsame
    · exact absurd h hguards

end Unsent

/-- Upper case, and no blanks to strip. -/
def plainLibraries : FeedLibraries where
  upper := upper
  strip text := text
  sha256 c := c.1 ++ "/" ++ c.2

/-- An instrument without a token for DHAN. -/
def untokenedInstrument : FeedInstrument where
  id := 3
  exchange := "NSE"
  segment := "EQ"

/-- **An order stays PENDING** that was never sent: its instrument has no token. -/
theorem unsent_leaves_pending :
    ¬ ∀ (lib : FeedLibraries) (settings : Settings) (now later : Time) (s : Store) (userId : Uuid)
      (instrument : FeedInstrument) (values : OrderValues) (quote : Option NormalizedQuote)
      (outcome : HttpOutcome),
      FailsUnsent lib settings now later s userId instrument values quote outcome →
      NoNewOpenOrder s
        (placeInstrument lib settings now later s userId instrument values quote outcome).1
        userId := by
  intro h
  let quote : NormalizedQuote := { instrumentId := 3, receivedAt := 0, ltp := 100 }
  have hunsent : (dhanSubscription plainLibraries untokenedInstrument).isOk = false := by
    decide +kernel
  have hfails : FailsUnsent plainLibraries liveSettings 0 1 connectedStore 7 untokenedInstrument
      marketValues (some quote) (.network false) := by
    refine ⟨rfl, fun hissued => ?_, .escaped, by decide +kernel⟩
    rw [RequestIssued, hunsent] at hissued
    exact Bool.false_ne_true hissued.2.1
  have hstatus : (placeInstrument plainLibraries liveSettings 0 1 connectedStore 7
      untokenedInstrument marketValues (some quote) (.network false)).1.orders.map
      TradingOrder.status = [.pending] := by decide +kernel
  obtain ⟨o, ho, hpending⟩ := List.mem_map.1
    (hstatus ▸ List.mem_singleton_self OrderStatus.pending)
  have hnot := (h _ _ _ _ _ _ _ _ _ _ hfails).settled o ho (List.not_mem_nil)
  rw [hpending] at hnot
  exact hnot (by decide)

end GnkAlgo
