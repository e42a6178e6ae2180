import GnkAlgo.Lib.SingleUse
import GnkAlgo.Trading.LiveSteps

/-!
# A placement, statement by statement

`OrderManager.place` of `backend/app/trading/service.py` between its queries, its commit
and its `await`, where other processes commit and where it may be killed.  The risk check
has three queries: for the controls, for the open orders and for the position.

* `PlaceCall.advance` — one statement more, from one query or commit to the next;
* `place_eq_advance` — a call that nobody interrupts is `place`;
* `PlaceCall.advance_cases` — what a statement does;
* `PlaceCall.advance_live` — in live mode a client id is taken by the commit before the request,
  and by nothing else;
* `PlaceCall.advance_move`, `PlaceCall.advance_unsent` — and it pays for one request, as the
  call does.
-/

namespace GnkAlgo

open SingleUse

/-- The arguments of a call of `place`. -/
structure PlaceCall where
  userId : Uuid
  instrumentId : Uuid
  values : OrderValues
  quote : Option NormalizedQuote

/-- Where a call stands: what it does next. -/
inductive PlaceStage
  | called
  /-- The query for an order under the client id has found none. -/
  | absent
  /-- The query for the controls has found no halt. -/
  | controlled (quote : NormalizedQuote)
  /-- The query for the open orders leaves room. -/
  | counted
  | checked
  | connected (brokerConnectionId : Uuid)
  /-- The order is committed, and the request is next. -/
  | committed (order : TradingOrder)
  | awaiting (order : TradingOrder)
  | returned (result : Except Raised TradingOrder)

namespace PlaceCall

/-- The checks up to the query for the controls. -/
def controlChecks (settings : Settings) (now : Time) (d : Database) (c : PlaceCall) :
    Except TradingError NormalizedQuote := do
  if c.values.orderType = .limit ∧ c.values.limitPrice = none then
    throw ⟨"LIMIT_PRICE_REQUIRED", 422⟩
  let q ← quoteCheck settings now c.quote
  controlCheck d c.userId
  return q

/-- From there to the query for the open orders. -/
def countChecks (settings : Settings) (d : Database) (c : PlaceCall) (price : ℚ) :
    Except TradingError Unit := do
  sizeCheck settings c.values.quantity price
  openOrderCheck settings d c.userId

/-- The query for the position. -/
def exposureCheck (settings : Settings) (d : Database) (c : PlaceCall) : Except TradingError Unit :=
  positionCheck settings d ⟨c.userId, c.instrumentId, .live, c.values.productType⟩ c.values.side
    c.values.quantity

/-- Together they are the checks of a live placement. -/
theorem liveChecks_eq (settings : Settings) (now : Time) (d : Database) (c : PlaceCall) :
    liveChecks settings now d c.userId c.instrumentId c.values c.quote =
      (do
        let q ← c.controlChecks settings now d
        c.countChecks settings d q.ltp
        c.exposureCheck settings d) := by
  unfold liveChecks riskCheck controlChecks countChecks exposureCheck
  split
  · rfl
  · simp only [bind_assoc, pure_bind]

/-- The control query lets a call through only where the user is not halted. -/
theorem not_isHalted_of_controlChecks {settings : Settings} {now : Time} {d : Database}
    {c : PlaceCall} {q : NormalizedQuote} (h : c.controlChecks settings now d = .ok q) :
    isHalted d c.userId = false := by
  simp only [controlChecks, bind, Except.bind] at h
  split at h
  · cases h
  · split at h
    · cases h
    · split at h
      · cases h
      · rename_i hcontrol
        unfold controlCheck at hcontrol
        split at hcontrol
        · cases hcontrol
        · rename_i hfree
          exact Bool.eq_false_of_not_eq_true hfree

end PlaceCall

/-- The next statement of `OrderManager.place`. -/
def PlaceCall.advance (settings : Settings) (now : Time) (subscribed : Bool)
    (outcome : HttpOutcome) (s : Store) (c : PlaceCall) : PlaceStage → Store × PlaceStage
  | .called =>
    match settings.tradingMode with
    | .disabled => (s, .returned (.error (.trading ⟨"TRADING_DISABLED", 403⟩)))
    | .paper =>
      let (s, result) := paperPlace settings now s c.userId c.instrumentId c.values c.quote
      (s, .returned result)
    | .live =>
      match liveGate settings with
      | .error e => (s, .returned (.error (.trading e)))
      | .ok () =>
        match orderOfClient? s.toDatabase c.userId c.values.clientOrderId with
        | some existing => (s, .returned (replay existing c.instrumentId c.values))
        | none => (s, .absent)
  | .absent =>
    match c.controlChecks settings now s.toDatabase with
    | .error e => (s, .returned (.error (.trading e)))
    | .ok quote => (s, .controlled quote)
  | .controlled quote =>
    match c.countChecks settings s.toDatabase quote.ltp with
    | .error e => (s, .returned (.error (.trading e)))
    | .ok () => (s, .counted)
  | .counted =>
    match c.exposureCheck settings s.toDatabase with
    | .error e => (s, .returned (.error (.trading e)))
    | .ok () => (s, .checked)
  | .checked =>
    match liveConnection now s c.userId with
    | (s, .error e) => (s, .returned (.error (.trading e)))
    | (s, .ok (connection, _, _)) => (s, .connected connection.id)
  | .connected connectionId =>
    let o := liveOrder s.nextUuid c.userId c.instrumentId connectionId c.values now
    match Session.commit ⟨s.toDatabase, s.toDatabase.insertOrder o⟩ with
    | .error e => (s, .returned (.error e))
    | .ok s => (s, .committed o)
  | .committed o =>
    if subscribed then (s, .awaiting o)
    else
      let (s, result) := s.finish o (placeFinish now o (dhanPlace false outcome))
      (s, .returned result)
  | .awaiting o =>
    let (s, result) := s.finish o (placeFinish now o (dhanPlace true outcome))
    (s, .returned result)
  | .returned result => (s, .returned result)

/-! ## The request -/

/-- What the call has returned or raised. -/
def PlaceStage.result? : PlaceStage → Option (Except Raised TradingOrder)
  | .returned result => some result
  | _ => none

/-- The client id that the call has taken for the request it comes to. -/
def PlaceStage.held : PlaceStage → Option (Uuid × String)
  | .committed o => some o.clientKey
  | _ => none

/-- The request has not been sent, and may be. -/
def PlaceStage.unsent : PlaceStage → Bool
  | .awaiting _ | .returned _ => false
  | _ => true

/-- The client ids of the requests the next statement hands to the HTTP client. -/
def PlaceStage.sends (subscribed : Bool) : PlaceStage → List (Uuid × String)
  | .committed o => if subscribed then [o.clientKey] else []
  | _ => []

section Advance

variable {settings : Settings} {now : Time} {subscribed : Bool} {outcome : HttpOutcome} {s : Store}
  {c : PlaceCall}

/-! ## Alone -/

/-- A statement of a call that nobody interrupts. -/
def PlaceCall.next (settings : Settings) (now : Time) (subscribed : Bool) (outcome : HttpOutcome)
    (c : PlaceCall) (at' : Store × PlaceStage) : Store × PlaceStage :=
  c.advance settings now subscribed outcome at'.1 at'.2

/-- **A call that nobody interrupts** places as `place` does. -/
theorem place_eq_advance : (c.next settings now subscribed outcome)^[8] (s, .called) =
    ((place settings now now s c.userId c.instrumentId c.values c.quote subscribed outcome).1,
      .returned
        (place settings now now s c.userId c.instrumentId c.values c.quote subscribed outcome).2) := by
  rw [Function.iterate_succ_apply, PlaceCall.next, PlaceCall.advance, place, placeBegin]
  cases settings.tradingMode with
  | disabled => rfl
  | paper => rfl
  | live =>
    dsimp only
    cases liveGate settings with
    | error e => rfl
    | ok u =>
      dsimp only
      cases orderOfClient? s.toDatabase c.userId c.values.clientOrderId with
      | some existing => rfl
      | none =>
        dsimp only
        rw [PlaceCall.liveChecks_eq, Function.iterate_succ_apply, PlaceCall.next, PlaceCall.advance]
        cases c.controlChecks settings now s.toDatabase with
        | error e => rfl
        | ok q =>
        dsimp only [bind, Except.bind]
        rw [Function.iterate_succ_apply, PlaceCall.next, PlaceCall.advance]
        cases c.countChecks settings s.toDatabase q.ltp with
        | error e => rfl
        | ok u =>
        dsimp only
        rw [Function.iterate_succ_apply, PlaceCall.next, PlaceCall.advance]
        cases c.exposureCheck settings s.toDatabase with
        | error e => rfl
        | ok u =>
        dsimp only
        rw [Function.iterate_succ_apply, PlaceCall.next, PlaceCall.advance]
        rcases liveConnection now s c.userId with ⟨t, e | ⟨connection, credentials, clientId⟩⟩
        · rfl
        · dsimp only
          rw [Function.iterate_succ_apply, PlaceCall.next, PlaceCall.advance]
          dsimp only
          cases Session.commit ⟨t.toDatabase, t.toDatabase.insertOrder
            (liveOrder t.nextUuid c.userId c.instrumentId connection.id c.values now)⟩ with
          | error e => rfl
          | ok t' =>
            cases subscribed with
            | true => rfl
            | false => rfl

/-- Outside live mode a call is one statement. -/
theorem PlaceCall.advance_called_of_not_live (hlive : settings.tradingMode ≠ .live) :
    ∃ result, (c.advance settings now subscribed outcome s .called).2 = .returned result := by
  rw [PlaceCall.advance]
  cases hmode : settings.tradingMode with
  | disabled => exact ⟨_, rfl⟩
  | paper => exact ⟨_, rfl⟩
  | live => exact absurd hmode hlive

theorem PlaceCall.next_iterate_returned (n : ℕ) (result : Except Raised TradingOrder) :
    (c.next settings now subscribed outcome)^[n] (s, .returned result) = (s, .returned result) :=
  Function.iterate_fixed rfl n

/-! ## Client ids -/

theorem clientKeys_finish (s : Store) (o : TradingOrder) (outcome : Outcome) :
    (s.finish o outcome).1.orders.map TradingOrder.clientKey =
      s.orders.map TradingOrder.clientKey := by
  unfold Store.finish
  split
  · rfl
  · rename_i new _
    show ((s.toDatabase.writeOrder o new).orders.map TradingOrder.clientKey) = _
    unfold Database.writeOrder
    split
    · rfl
    · rename_i row hrow
      obtain ⟨hmem, -⟩ := Database.order?_mem hrow
      rw [Database.setOrder_orders, Rows.map_replaceBy fun y hy hid => ?_]
      rw [s.valid.eq_of_id hy hmem hid]
      rfl

/-- **What a statement does**: it only reads; or it is the last one, which in live mode
takes no client id; or it commits the order under a client id that was free. -/
theorem PlaceCall.advance_cases {stage : PlaceStage} {r : Store × PlaceStage}
    (hr : r = c.advance settings now subscribed outcome s stage) :
    (r.1 = s ∧ ∀ o, r.2 ≠ .committed o) ∨
    (∃ result, r.2 = .returned result ∧ (settings.tradingMode = .live →
      r.1.orders.map TradingOrder.clientKey = s.orders.map TradingOrder.clientKey)) ∨
    ∃ o, r.2 = .committed o ∧ o.clientKey = (c.userId, c.values.clientOrderId) ∧
      o.clientKey ∉ s.orders.map TradingOrder.clientKey ∧
      r.1.orders.map TradingOrder.clientKey =
        s.orders.map TradingOrder.clientKey ++ [o.clientKey] := by
  have hreads : ∀ stage' : PlaceStage, r = (s, stage') → stage'.held = none →
      r.1 = s ∧ ∀ o, r.2 ≠ .committed o := by
    rintro stage' rfl hheld
    refine ⟨rfl, ?_⟩
    rintro o rfl
    cases hheld
  have hlast : ∀ (t : Store) (result : Except Raised TradingOrder), r = (t, .returned result) →
      (settings.tradingMode = .live →
        t.orders.map TradingOrder.clientKey = s.orders.map TradingOrder.clientKey) →
      ∃ result, r.2 = .returned result ∧ (settings.tradingMode = .live →
        r.1.orders.map TradingOrder.clientKey = s.orders.map TradingOrder.clientKey) := by
    rintro t result rfl hkeys
    exact ⟨result, rfl, hkeys⟩
  cases stage with
  | called =>
    rw [PlaceCall.advance] at hr
    cases hmode : settings.tradingMode with
    | disabled =>
      rw [hmode] at hr
      exact Or.inl (hreads _ hr rfl)
    | paper =>
      rw [hmode] at hr
      exact Or.inr (Or.inl (hmode ▸ hlast _ _ hr fun h => absurd (hmode.symm.trans h) (by decide)))
    | live =>
      rw [hmode] at hr
      dsimp only at hr
      split at hr
      · exact Or.inl (hreads _ hr rfl)
      · split at hr
        · exact Or.inl (hreads _ hr rfl)
        · exact Or.inl (hreads _ hr rfl)
  | absent =>
    rw [PlaceCall.advance] at hr
    split at hr
    · exact Or.inl (hreads _ hr rfl)
    · exact Or.inl (hreads _ hr rfl)
  | controlled quote =>
    rw [PlaceCall.advance] at hr
    split at hr
    · exact Or.inl (hreads _ hr rfl)
    · exact Or.inl (hreads _ hr rfl)
  | counted =>
    rw [PlaceCall.advance] at hr
    split at hr
    · exact Or.inl (hreads _ hr rfl)
    · exact Or.inl (hreads _ hr rfl)
  | checked =>
    rw [PlaceCall.advance] at hr
    rcases liveConnection_cases now s c.userId with ⟨t, e, hconn, hsame⟩ | ⟨⟨connection, _⟩, hconn⟩
    · rw [hconn] at hr
      exact Or.inr (Or.inl (hlast _ _ hr fun _ => congrArg (List.map _) hsame.orders))
    · rw [hconn] at hr
      exact Or.inl (hreads _ hr rfl)
  | connected connectionId =>
    rw [PlaceCall.advance] at hr
    cases hcommit : Session.commit ⟨s.toDatabase, s.toDatabase.insertOrder
        (liveOrder s.nextUuid c.userId c.instrumentId connectionId c.values now)⟩ with
    | error e =>
      rw [hcommit] at hr
      exact Or.inl (hreads _ hr rfl)
    | ok t =>
      rw [hcommit] at hr
      have hwork : s.toDatabase.insertOrder _ = t.toDatabase := Session.commit_eq_ok.1 hcommit
      have horders : t.orders.map TradingOrder.clientKey = s.orders.map TradingOrder.clientKey ++
          [(c.userId, c.values.clientOrderId)] := by
        rw [← hwork, Database.insertOrder, Database.addOrder, List.map_append]
        rfl
      have hkeys := t.valid.clientKeys
      rw [horders] at hkeys
      refine Or.inr (Or.inr ?_)
      rw [hr]
      refine ⟨_, rfl, rfl, fun hmem => ?_, horders⟩
      exact List.disjoint_of_nodup_append hkeys hmem (List.mem_singleton.2 rfl)
  | committed o =>
    rw [PlaceCall.advance] at hr
    cases subscribed with
    | true => exact Or.inl (hreads _ hr rfl)
    | false =>
      exact Or.inr (Or.inl (hlast _ _ hr fun _ =>
        clientKeys_finish s o (placeFinish now o (dhanPlace false outcome))))
  | awaiting o =>
    exact Or.inr (Or.inl (hlast _ _ hr fun _ =>
      clientKeys_finish s o (placeFinish now o (dhanPlace true outcome))))
  | returned result => exact Or.inl (hreads _ hr rfl)

/-- In live mode a statement takes a client id that was free, and goes on to the
request, or takes none. -/
theorem PlaceCall.advance_live (hlive : settings.tradingMode = .live) {stage : PlaceStage}
    {r : Store × PlaceStage} (hr : r = c.advance settings now subscribed outcome s stage) :
    (∃ o, r.2 = .committed o ∧ o.clientKey = (c.userId, c.values.clientOrderId) ∧
      o.clientKey ∉ s.orders.map TradingOrder.clientKey ∧
      r.1.orders.map TradingOrder.clientKey =
        s.orders.map TradingOrder.clientKey ++ [o.clientKey]) ∨
    ((∀ o, r.2 ≠ .committed o) ∧
      r.1.orders.map TradingOrder.clientKey = s.orders.map TradingOrder.clientKey) := by
  rcases PlaceCall.advance_cases hr with ⟨hsame, hstage⟩ | ⟨result, hstage, hkeys⟩ | h
  · exact Or.inr ⟨hstage, by rw [hsame]⟩
  · exact Or.inr ⟨fun o ho => (by rw [hstage] at ho; cases ho), hkeys hlive⟩
  · exact Or.inl h

/-- **One request for a client id**: the statements of a call in live mode. -/
theorem PlaceCall.advance_move (hlive : settings.tradingMode = .live) {stage : PlaceStage}
    {r : Store × PlaceStage} (hr : r = c.advance settings now subscribed outcome s stage) :
    (∀ k ∈ s.orders.map TradingOrder.clientKey, k ∈ r.1.orders.map TradingOrder.clientKey) ∧
    Move (· ∈ s.orders.map TradingOrder.clientKey) (· ∈ r.1.orders.map TradingOrder.clientKey)
      stage.held r.2.held (stage.sends subscribed) := by
  rcases PlaceCall.advance_live hlive hr with ⟨o, hstage, -, hfree, hkeys⟩ | ⟨hstage, hkeys⟩
  · refine ⟨fun k hk => hkeys ▸ List.mem_append_left _ hk, ?_⟩
    rw [hstage]
    cases stage with
    | committed o' =>
      rw [hr, PlaceCall.advance] at hstage
      split at hstage <;> cases hstage
    | _ => exact .take hfree (hkeys ▸ List.mem_append_right _ (List.mem_singleton.2 rfl))
  · have hheld : r.2.held = none := by
      cases hresult : r.2 with
      | committed o => exact absurd hresult (hstage o)
      | _ => rfl
    refine ⟨fun k hk => hkeys ▸ hk, ?_⟩
    rw [hheld]
    cases stage with
    | committed o =>
      cases subscribed with
      | true => exact .send
      | false => exact .drop
    | _ => exact .drop

/-- **One request for a call**: whatever the call stands for pays for it. -/
theorem PlaceCall.advance_unsent {κ : Type*} {spent spent' : κ → Prop} (k : κ) (stage : PlaceStage) :
    Move spent spent' (if stage.unsent then some k else none)
      (if (c.advance settings now subscribed outcome s stage).2.unsent then some k else none)
      ((stage.sends subscribed).map fun _ => k) := by
  have hkept : ∀ b : Bool, Move spent spent' (some k) (if b then some k else none) [] := by
    intro b
    cases b with
    | false => exact .drop
    | true => exact .keep
  cases stage with
  | committed o =>
    cases subscribed with
    | true => exact .send
    | false => exact .drop
  | awaiting o => exact .drop
  | returned result => exact .drop
  | _ => exact hkept _

end Advance

end GnkAlgo
