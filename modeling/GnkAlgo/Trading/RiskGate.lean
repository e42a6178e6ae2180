import GnkAlgo.Trading.LiveSteps

/-!
# The risk gate over runs

`place` puts every new order through the gate; `modify` gives an order a new
quantity and a new limit price without it.  A run keeps the limits of the gate
exactly as long as every modification that is carried out would have passed
them (`gate_kept_iff`).
-/

namespace GnkAlgo

open Transition

/-! ## The kill switch -/

/-- `kill_switch` and `global_kill_switch`: set the control of a scope. -/
def killSwitch (s : Store) (scope : ControlScope) (halted : Bool) : Store where
  toDatabase := { s.toDatabase with
    controls :=
      if s.controls.any (·.scopeKey = scope) then
        Rows.replaceBy TradingControl.scopeKey ⟨scope, halted⟩ s.controls
      else s.controls ++ [⟨scope, halted⟩] }
  valid := ⟨s.valid.orderIds, s.valid.clientKeys, s.valid.positionKeys, s.valid.brokerKeys,
    s.valid.executionOrders, s.valid.orderUuids, s.valid.paperUuids⟩

/-! ## What the calls do to quantities -/

/-- The row of `o` has quantity `quantity` in `t`; the other rows are those of `s`. -/
def Requantified (s t : Store) (o : TradingOrder) (quantity : ℤ) : Prop :=
  ∃ new : TradingOrder, new.id = o.id ∧ new.userId = o.userId ∧ new.quantity = quantity ∧
    t.orders = Rows.replaceBy TradingOrder.id new s.orders

theorem Requantified.of_same {s t : Store} {o : TradingOrder} (ho : o ∈ s.orders)
    (h : t.orders = s.orders) : Requantified s t o o.quantity :=
  ⟨o, rfl, rfl, rfl, by rw [h, Rows.replaceBy_self s.valid.orderIds ho]⟩

/-- The rows after a placement: the old ones, or one more that passed the gate. -/
def Placed (settings : Settings) (s t : Store) (userId instrumentId : Uuid) (values : OrderValues)
    (quote : Option NormalizedQuote) : Prop :=
  ∃ (new : TradingOrder) (price : ℚ) (mode : Mode), t.orders = s.orders ++ [new] ∧
    new.id = s.nextUuid ∧ new.userId = userId ∧ new.quantity = values.quantity ∧
    riskPrice? quote values.limitPrice = some price ∧
    riskCheck settings s.toDatabase userId instrumentId values.side values.productType
      values.quantity price mode = .ok ()

theorem settled_orders {now : Time} {s : Store} {o : TradingOrder} {t : Session}
    (hid : o.id = s.nextUuid)
    (h : Session.Settled now ⟨s.toDatabase.insertOrder o, s.toDatabase.insertOrder o⟩ o t) :
    ∃ new : TradingOrder, t.work.orders = s.orders ++ [new] ∧ new.id = o.id ∧
      new.userId = o.userId ∧ new.quantity = o.quantity := by
  cases h with
  | rests => exact ⟨o, rfl, rfl, rfl, rfl⟩
  | canceled =>
    exact ⟨_, congrArg Database.orders (s.valid.setOrder_insertOrder
      hid (show ({ o with status := .canceled, completedAt := some now } : TradingOrder).id = o.id
        from rfl)), rfl, rfl, rfl⟩
  | filled price _ _ =>
    refine ⟨o.fill o.quantity price now, ?_, rfl, rfl, rfl⟩
    rw [Session.fillPaper_orders]
    exact congrArg Database.orders
      (s.valid.setOrder_insertOrder hid (show (o.fill o.quantity price now).id = o.id from rfl))

theorem placeFinish_keeps (now : Time) (o : TradingOrder) (result : AdapterResult) :
    ((placeFinish now o result).1.getD o).userId = o.userId ∧
      ((placeFinish now o result).1.getD o).quantity = o.quantity := by
  cases result <;> exact ⟨rfl, rfl⟩

/-- **What `place` does to quantities.** -/
theorem place_placed (settings : Settings) (now later : Time) (s : Store)
    (userId instrumentId : Uuid) (values : OrderValues) (quote : Option NormalizedQuote)
    (subscribed : Bool) (outcome : HttpOutcome) :
    (place settings now later s userId instrumentId values quote subscribed outcome).1.orders =
      s.orders ∨
    Placed settings s
      (place settings now later s userId instrumentId values quote subscribed outcome).1
      userId instrumentId values quote := by
  rcases place_cases settings now later s userId instrumentId values quote subscribed outcome with
    ⟨-, h⟩ | ⟨-, hsame⟩ | ⟨hguards, connectionId, h⟩
  · rw [h]
    rcases paperPlace_cases settings now s userId instrumentId values quote with
      hs | ⟨price, t, hprice, hgate, hvalid, hsettled, hs⟩
    · rw [hs]; exact Or.inl rfl
    · obtain ⟨new, horders, hid, huser, hquantity⟩ := settled_orders rfl hsettled
      exact Or.inr ⟨new, price, .paper, by rw [hs, horders], hid, huser, hquantity, hprice, hgate⟩
  · exact Or.inl hsame.orders
  · obtain ⟨huser, hquantity⟩ := placeFinish_keeps later
      (liveOrder s.nextUuid userId instrumentId connectionId values now)
      (dhanPlace subscribed outcome)
    obtain ⟨q, rfl, hgate⟩ := liveChecks_ok hguards.checks
    exact Or.inr ⟨_, q.ltp, .live, congrArg Database.orders h, placeFinish_id, huser, hquantity,
      rfl, hgate⟩

/-- The conditions under which `modify` carries a modification out: those it
checks itself, and in LIVE mode the broker's acceptance. -/
def Modifiable (settings : Settings) (now : Time) (s : Store) (o : TradingOrder) (quantity : ℤ)
    (limitPrice : ℚ) (quote : Option NormalizedQuote) (outcome : HttpOutcome) : Prop :=
  match o.mode with
  | .paper =>
    o.status ∈ openOrderStatuses ∧ o.orderType = .limit ∧ max 1 o.filledQuantity ≤ quantity ∧
      ∀ q ∈ quote, isCrossing (o.modified quantity limitPrice) q = true →
        o.filledQuantity < quantity
  | .live => ModifyGuards settings now s o quantity ∧ ∃ r, dhanModify o outcome = .ok r

section Modify

variable (settings : Settings) (now : Time) {s : Store} {o : TradingOrder} (quantity : ℤ)
  (limitPrice : ℚ) (quote : Option NormalizedQuote)

/-- The session of a paper modification that its checks let through. -/
theorem paperModifySession_cases (hpaper : o.mode = .paper) (ho : o ∈ s.orders)
    (outcome : HttpOutcome) :
    (¬ Modifiable settings now s o quantity limitPrice quote outcome ∧
      ∃ e, paperModifySession settings now s.begin o quantity limitPrice quote = .error e) ∨
    (Modifiable settings now s o quantity limitPrice quote outcome ∧
      ∃ t new, paperModifySession settings now s.begin o quantity limitPrice quote = .ok (t, new) ∧
        t.work.Valid ∧ new.id = o.id ∧ new.userId = o.userId ∧ new.quantity = quantity ∧
        t.work.orders = Rows.replaceBy TradingOrder.id new s.orders) := by
  unfold paperModifySession Modifiable
  rw [hpaper]
  by_cases hopen : o.status ∈ openOrderStatuses
  swap
  · rw [if_pos (Or.inr (Or.inl hopen))]
    exact Or.inl ⟨fun h => hopen h.1, _, rfl⟩
  by_cases htype : o.orderType = .limit
  swap
  · rw [if_pos (Or.inr (Or.inr htype))]
    exact Or.inl ⟨fun h => htype h.2.1, _, rfl⟩
  rw [if_neg (by simp [hopen, htype])]
  by_cases hquantity : quantity < max 1 o.filledQuantity
  · rw [if_pos hquantity]
    exact Or.inl ⟨fun h => absurd h.2.2.1 (not_le.2 hquantity), _, rfl⟩
  rw [if_neg hquantity]
  have hle := not_lt.1 hquantity
  have hmodified : (s.toDatabase.setOrder (o.modified quantity limitPrice)).Valid :=
    s.valid.setOrder (x := o.modified quantity limitPrice) ho rfl rfl
  have hrests : ∃ t new, (Except.ok (⟨s.toDatabase,
        s.toDatabase.setOrder (o.modified quantity limitPrice)⟩, o.modified quantity limitPrice) :
        Except TradingError (Session × TradingOrder)) = .ok (t, new) ∧ t.work.Valid ∧
      new.id = o.id ∧ new.userId = o.userId ∧ new.quantity = quantity ∧
      t.work.orders = Rows.replaceBy TradingOrder.id new s.orders :=
    ⟨_, _, rfl, hmodified, rfl, rfl, rfl, rfl⟩
  cases quote with
  | none => exact Or.inr ⟨⟨hopen, htype, hle, fun q hq => absurd hq (by simp)⟩, hrests⟩
  | some q =>
    dsimp only
    by_cases hcross : isCrossing (o.modified quantity limitPrice) q = true
    · rw [if_pos hcross]
      rcases paperFill_cases settings now
          (s := ⟨s.toDatabase, s.toDatabase.setOrder (o.modified quantity limitPrice)⟩) s.valid
          le_rfl (o.modified quantity limitPrice) (quantity - o.filledQuantity) q with
        ⟨hq, hfill⟩ | ⟨hq, -, hfill⟩
      · left
        refine ⟨fun h => ?_, _, hfill⟩
        have hlt := h.2.2.2 q (by simp) hcross
        simp only [TradingOrder.modified] at hq
        omega
      · right
        refine ⟨⟨hopen, htype, hle, fun _ _ _ => by omega⟩, _, _, hfill, ?_, rfl, rfl, rfl, ?_⟩
        · exact Session.valid_fillPaper
            (s := ⟨s.toDatabase, s.toDatabase.setOrder (o.modified quantity limitPrice)⟩) hmodified
            (Rows.mem_replaceBy_self ho rfl) (fun h => h) _ _ _
        · rw [Session.fillPaper_orders]
          exact Rows.replaceBy_replaceBy rfl
    · rw [if_neg hcross]
      exact Or.inr ⟨⟨hopen, htype, hle, fun q' hq' h => absurd h
        (by rw [← Option.some_inj.1 hq']; exact hcross)⟩, hrests⟩

/-- A refused modification writes the order back with the quantity it had. -/
theorem modifyFinish_of_not_ok {result : AdapterResult} (h : ∀ r, result ≠ .ok r) :
    (∃ e, (modifyFinish o quantity limitPrice result).2 = .error e) ∧
    ((modifyFinish o quantity limitPrice result).1.getD o).userId = o.userId ∧
    ((modifyFinish o quantity limitPrice result).1.getD o).quantity = o.quantity := by
  cases result with
  | ok r => exact absurd rfl (h r)
  | error e => exact ⟨⟨_, rfl⟩, rfl, rfl⟩
  | escaped => exact ⟨⟨_, rfl⟩, rfl, rfl⟩

/-- **What `modify` does to quantities**: it raises and leaves them, or it
returns and the order has the new one. -/
theorem modify_requantified (ho : o ∈ s.orders) (outcome : HttpOutcome) :
    (¬ Modifiable settings now s o quantity limitPrice quote outcome ∧
      (∃ e, (modify settings now s o quantity limitPrice quote outcome).2 = .error e) ∧
      Requantified s (modify settings now s o quantity limitPrice quote outcome).1 o o.quantity) ∨
    (Modifiable settings now s o quantity limitPrice quote outcome ∧
      (∃ new, (modify settings now s o quantity limitPrice quote outcome).2 = .ok new) ∧
      Requantified s (modify settings now s o quantity limitPrice quote outcome).1 o quantity) := by
  rcases modify_cases settings now ho quantity limitPrice quote outcome with
    ⟨hmode, h⟩ | ⟨hmode, hguards, herror, hsame⟩ | ⟨hmode, hguards, hresult, hs⟩
  · rw [h]
    unfold paperModify
    rcases paperModifySession_cases settings now quantity limitPrice quote hmode ho outcome with
      ⟨hnot, e, h⟩ | ⟨hcan, t, new, h, hvalid, hid, huser, hquantity, horders⟩
    · rw [h]
      exact Or.inl ⟨hnot, ⟨_, rfl⟩, .of_same ho rfl⟩
    · rw [h]
      dsimp only
      rw [Session.commitOr_of_valid hvalid]
      exact Or.inr ⟨hcan, ⟨_, rfl⟩, new, hid, huser, hquantity, horders⟩
  · unfold Modifiable
    rw [hmode]
    exact Or.inl ⟨fun hcan => hguards hcan.1, herror, .of_same ho hsame.orders⟩
  · unfold Modifiable
    rw [hmode, hresult]
    by_cases hok : ∃ r, dhanModify o outcome = .ok r
    · obtain ⟨response, hresponse⟩ := hok
      rw [hresponse] at hs ⊢
      exact Or.inr ⟨⟨hguards, response, rfl⟩, ⟨_, rfl⟩,
        (modifyFinish o quantity limitPrice (.ok response)).1.getD o, rfl, rfl, rfl,
        congrArg Database.orders hs⟩
    · obtain ⟨hraised, huser, hq⟩ := modifyFinish_of_not_ok quantity limitPrice
        (fun r hr => hok ⟨r, hr⟩)
      exact Or.inl ⟨fun hcan => hok hcan.2, hraised, _, modifyFinish_id, huser, hq,
        congrArg Database.orders hs⟩

end Modify

/-! ## Runs -/

/-- The store, and for each order the price its quantity was last accepted at. -/
structure GateState where
  store : Store
  accepted : Uuid → Option ℚ

/-- A placement, a modification or a use of a kill switch. -/
inductive GateEvent
  | place (now later : Time) (userId instrumentId : Uuid) (values : OrderValues)
      (quote : Option NormalizedQuote) (subscribed : Bool) (outcome : HttpOutcome)
  | modify (now : Time) (orderId : Uuid) (quantity : ℤ) (limitPrice : ℚ)
      (quote : Option NormalizedQuote) (outcome : HttpOutcome)
  | killSwitch (scope : ControlScope) (halted : Bool)

/-- One call. -/
def gateStep (settings : Settings) (g : GateState) : GateEvent → GateState
  | .place now later userId instrumentId values quote subscribed outcome =>
    { store :=
        (place settings now later g.store userId instrumentId values quote subscribed outcome).1
      accepted := fun id =>
        if id ∈ g.store.orders.map TradingOrder.id then g.accepted id
        else riskPrice? quote values.limitPrice }
  | .modify now orderId quantity limitPrice quote outcome =>
    match g.store.order? orderId with
    | none => g
    | some o =>
      match modify settings now g.store o quantity limitPrice quote outcome with
      | (t, .ok _) =>
        { store := t
          accepted := Function.update g.accepted orderId (riskPrice? quote (some limitPrice)) }
      | (t, .error _) => { g with store := t }
  | .killSwitch scope halted => { g with store := killSwitch g.store scope halted }

/-- Every quantity is within the limits of the gate at the price it was last
accepted at. -/
def GateKept (settings : Settings) (g : GateState) : Prop :=
  ∀ o ∈ g.store.orders, o.quantity ≤ settings.tradingMaxOrderQuantity ∧
    ∃ price, g.accepted o.id = some price ∧ o.quantity * price ≤ settings.tradingMaxOrderNotional

/-- No order of a halted user is new or has a higher quantity. -/
def NotRaisedHalted (s t : Store) : Prop :=
  ∀ o ∈ t.orders, isHalted s.toDatabase o.userId = true →
    ∃ o' ∈ s.orders, o'.id = o.id ∧ o.quantity ≤ o'.quantity

/-- A modification that is carried out would pass the gate. -/
def WithinGate (settings : Settings) (g : GateState) : GateEvent → Prop
  | .modify now orderId quantity limitPrice quote outcome =>
    ∀ o ∈ g.store.order? orderId,
      Modifiable settings now g.store o quantity limitPrice quote outcome →
      quantity ≤ settings.tradingMaxOrderQuantity ∧
      (∀ price ∈ riskPrice? quote (some limitPrice),
        quantity * price ≤ settings.tradingMaxOrderNotional) ∧
      (o.quantity < quantity → isHalted g.store.toDatabase o.userId = false)
  | _ => True

section Steps

variable {settings : Settings}

/-- The rows of a store after one of them got a new quantity. -/
theorem Requantified.mem {s t : Store} {o new : TradingOrder} {quantity : ℤ}
    (h : Requantified s t o quantity) (hnew : new ∈ t.orders) :
    (new.id = o.id ∧ new.userId = o.userId ∧ new.quantity = quantity) ∨
      (new ∈ s.orders ∧ new.id ≠ o.id) := by
  obtain ⟨row, hid, huser, hquantity, horders⟩ := h
  rw [horders] at hnew
  rcases Rows.mem_replaceBy hnew with rfl | ⟨hmem, hne⟩
  · exact Or.inl ⟨hid, huser, hquantity⟩
  · exact Or.inr ⟨hmem, fun heq => hne (heq.trans hid.symm)⟩

theorem Requantified.exists {s t : Store} {o : TradingOrder} {quantity : ℤ} (ho : o ∈ s.orders)
    (h : Requantified s t o quantity) :
    ∃ new ∈ t.orders, new.id = o.id ∧ new.userId = o.userId ∧ new.quantity = quantity := by
  obtain ⟨row, hid, huser, hquantity, horders⟩ := h
  exact ⟨row, by rw [horders]; exact Rows.mem_replaceBy_self ho hid.symm, hid, huser, hquantity⟩

/-- Rewriting a row with the quantity it had changes nothing for the gate. -/
theorem gateKept_of_same {g : GateState} {t : Store} {o : TradingOrder} (h : GateKept settings g)
    (ho : o ∈ g.store.orders) (ht : Requantified g.store t o o.quantity) :
    GateKept settings { g with store := t } ∧ NotRaisedHalted g.store t := by
  refine ⟨fun new hnew => ?_, fun new hnew _ => ?_⟩
  · rcases ht.mem hnew with ⟨hid, -, hquantity⟩ | ⟨hmem, -⟩
    · rw [hid, hquantity]; exact h o ho
    · exact h new hmem
  · rcases ht.mem hnew with ⟨hid, -, hquantity⟩ | ⟨hmem, -⟩
    · exact ⟨o, ho, hid.symm, hquantity.le⟩
    · exact ⟨new, hmem, rfl, le_refl _⟩

/-- A placement keeps the limits of the gate. -/
theorem gateKept_place {g : GateState} (h : GateKept settings g) {now later : Time}
    {userId instrumentId : Uuid} {values : OrderValues} {quote : Option NormalizedQuote}
    {subscribed : Bool} {outcome : HttpOutcome} :
    GateKept settings (gateStep settings g
        (.place now later userId instrumentId values quote subscribed outcome)) ∧
      NotRaisedHalted g.store (gateStep settings g
        (.place now later userId instrumentId values quote subscribed outcome)).store := by
  have hold : ∀ o ∈ g.store.orders, o.quantity ≤ settings.tradingMaxOrderQuantity ∧
      ∃ price, (gateStep settings g (.place now later userId instrumentId values quote subscribed
        outcome)).accepted o.id = some price ∧
        o.quantity * price ≤ settings.tradingMaxOrderNotional := by
    intro o ho
    have hmem : o.id ∈ g.store.orders.map TradingOrder.id := List.mem_map_of_mem ho
    simp only [gateStep]
    rw [if_pos hmem]
    exact h o ho
  rcases place_placed settings now later g.store userId instrumentId values quote subscribed
      outcome with hs | ⟨new, price, mode, horders, hid, huser, hquantity, hprice, hgate⟩
  · refine ⟨fun o ho => hold o ?_, fun o ho _ => ⟨o, ?_, rfl, le_refl _⟩⟩
    · rwa [gateStep, hs] at ho
    · rwa [gateStep, hs] at ho
  · obtain ⟨hhalted, hmax, hnotional, -, -⟩ := riskCheck_eq_ok.1 hgate
    have hfresh : new.id ∉ g.store.orders.map TradingOrder.id := by
      rw [hid]
      intro hmem
      obtain ⟨y, hy, hyid⟩ := List.mem_map.1 hmem
      exact absurd (g.store.valid.orderUuids y hy) (by rw [hyid]; exact lt_irrefl _)
    refine ⟨fun o ho => ?_, fun o ho hhalt => ?_⟩
    · rw [gateStep, horders] at ho
      rcases List.mem_append.1 ho with ho | ho
      · exact hold o ho
      · rw [List.mem_singleton.1 ho, hquantity]
        refine ⟨hmax, price, ?_, hnotional⟩
        simp only [gateStep]
        rw [if_neg hfresh, hprice]
    · rw [gateStep, horders] at ho
      rcases List.mem_append.1 ho with ho | ho
      · exact ⟨o, ho, rfl, le_refl _⟩
      · rw [List.mem_singleton.1 ho, huser, hhalted] at hhalt
        cases hhalt

/-- A modification that is carried out keeps the limits of the gate exactly when
it would have passed them. -/
theorem gateKept_modified_iff {g : GateState} {t : Store} {o : TradingOrder} {quantity : ℤ}
    {price : ℚ} (h : GateKept settings g) (ho : o ∈ g.store.orders)
    (ht : Requantified g.store t o quantity) :
    (GateKept settings ⟨t, Function.update g.accepted o.id (some price)⟩ ∧
      NotRaisedHalted g.store t) ↔
    quantity ≤ settings.tradingMaxOrderQuantity ∧
      quantity * price ≤ settings.tradingMaxOrderNotional ∧
      (o.quantity < quantity → isHalted g.store.toDatabase o.userId = false) := by
  constructor
  · rintro ⟨hkept, hraised⟩
    obtain ⟨row, hrow, hid, huser, hquantity⟩ := ht.exists ho
    obtain ⟨hmax, price', hprice, hnotional⟩ := hkept row hrow
    rw [hquantity] at hmax hnotional
    change Function.update g.accepted o.id (some price) row.id = some price' at hprice
    rw [hid, Function.update_self] at hprice
    obtain rfl := Option.some_inj.1 hprice
    refine ⟨hmax, hnotional, fun hlt => ?_⟩
    by_contra hhalted
    obtain ⟨o', ho', hid', hle⟩ := hraised row hrow (by
      rw [huser]; exact Bool.eq_true_of_not_eq_false hhalted)
    rw [g.store.valid.eq_of_id ho' ho (hid'.trans hid)] at hle
    omega
  · rintro ⟨hmax, hnotional, hhalted⟩
    refine ⟨fun row hrow => ?_, fun row hrow hhalt => ?_⟩
    · change row.quantity ≤ _ ∧ ∃ p, Function.update g.accepted o.id (some price) row.id =
        some p ∧ _
      rcases ht.mem hrow with ⟨hid, -, hquantity⟩ | ⟨hrow, hne⟩
      · rw [hid, hquantity, Function.update_self]
        exact ⟨hmax, price, rfl, hnotional⟩
      · rw [Function.update_of_ne hne]
        exact h row hrow
    · rcases ht.mem hrow with ⟨hid, huser, hquantity⟩ | ⟨hrow, -⟩
      · refine ⟨o, ho, hid.symm, ?_⟩
        by_contra hlt
        rw [huser, hhalted (by omega)] at hhalt
        cases hhalt
      · exact ⟨row, hrow, rfl, le_refl _⟩

/-- **One call**: what the gate promises is kept exactly when the call is within
the gate. -/
theorem gateStep_kept_iff {g : GateState} (h : GateKept settings g) (e : GateEvent) :
    (GateKept settings (gateStep settings g e) ∧
      NotRaisedHalted g.store (gateStep settings g e).store) ↔ WithinGate settings g e := by
  cases e with
  | place now later userId instrumentId values quote subscribed outcome =>
    exact ⟨fun _ => trivial, fun _ => gateKept_place h⟩
  | killSwitch scope halted =>
    exact ⟨fun _ => trivial, fun _ => ⟨h, fun o ho _ => ⟨o, ho, rfl, le_refl _⟩⟩⟩
  | modify now orderId quantity limitPrice quote outcome =>
    simp only [gateStep, WithinGate]
    cases ho : g.store.order? orderId with
    | none => exact ⟨fun _ o hmem => absurd hmem (by simp),
        fun _ => ⟨h, fun o ho _ => ⟨o, ho, rfl, le_refl _⟩⟩⟩
    | some o =>
      obtain ⟨hmem, rfl⟩ := Database.order?_mem ho
      obtain ⟨price, hprice⟩ : ∃ price, riskPrice? quote (some limitPrice) = some price := by
        cases quote <;> exact ⟨_, rfl⟩
      simp only [Option.mem_def, Option.some.injEq, forall_eq', hprice]
      have hcases := modify_requantified settings now quantity limitPrice quote hmem outcome
      cases hresult : modify settings now g.store o quantity limitPrice quote outcome with
      | mk t result =>
        rw [hresult] at hcases
        rcases hcases with ⟨hnot, ⟨e, he⟩, hrows⟩ | ⟨hcan, ⟨new, hok⟩, hrows⟩
        · obtain rfl : result = .error e := he
          exact ⟨fun _ hcan => absurd hcan hnot, fun _ => gateKept_of_same h hmem hrows⟩
        · obtain rfl : result = .ok new := hok
          exact (gateKept_modified_iff h hmem hrows).trans
            ⟨fun hwithin _ => hwithin, fun hwithin => hwithin hcan⟩

end Steps

/-- **Runs.**  In every run all of whose modifications are within the gate the
limits hold in every state; and from there the next call keeps them, and raises
nothing while trading is halted, exactly when it is within the gate too. -/
theorem gate_kept_iff {settings : Settings} {s : Store} {accepted : Uuid → Option ℚ}
    {g : GateState} {events : List GateEvent} (h : s.orders = [])
    (hrun : Run (Guarded (WithinGate settings) (Steps (gateStep settings))) ⟨s, accepted⟩ events
      g) :
    GateKept settings g ∧
    ∀ e, (GateKept settings (gateStep settings g e) ∧
      NotRaisedHalted g.store (gateStep settings g e).store) ↔ WithinGate settings g e := by
  have hkept : GateKept settings g := by
    refine hrun.invariant (P := GateKept settings) ?_ ?_
    · intro o ho
      rw [h] at ho
      cases ho
    · rintro g e _ hg ⟨hwithin, rfl⟩
      exact ((gateStep_kept_iff hg e).2 hwithin).1
  exact ⟨hkept, gateStep_kept_iff hkept⟩

/-- The defaults, in paper mode. -/
def paperSettings : Settings := { (default : Settings) with tradingMode := .paper }

/-- A limit order to buy 10, raised to 2000 after it was accepted. -/
def raiseOrder : List GateEvent :=
  [.place 0 0 7 3 tenAtHundred none true (.network true),
  .modify 1 0 2000 100 none (.network true)]

/-- The same order raised to 20, which the gate lets through. -/
def raiseWithin : List GateEvent :=
  [.place 0 0 7 3 tenAtHundred none true (.network true),
  .modify 1 0 20 100 none (.network true)]

theorem raiseWithin_guarded :
    Run (Guarded (WithinGate paperSettings) (Steps (gateStep paperSettings)))
      ⟨Store.empty, fun _ => none⟩ raiseWithin
      (raiseWithin.foldl (gateStep paperSettings) ⟨Store.empty, fun _ => none⟩) := by
  refine .cons ⟨trivial, rfl⟩ <| .single ⟨fun o ho _ => ⟨by decide, ?_, fun _ => ?_⟩, rfl⟩
  · intro price hprice
    obtain rfl : 100 = price := Option.some_inj.1 hprice
    decide +kernel
  · have hcontrols : (gateStep paperSettings ⟨Store.empty, fun _ => none⟩
        (.place 0 0 7 3 tenAtHundred none true (.network true))).store.controls = [] := by
      decide +kernel
    simp [isHalted, hcontrols]

theorem gate_kept_iff_raiseWithin :
    GateKept paperSettings (raiseWithin.foldl (gateStep paperSettings)
      ⟨Store.empty, fun _ => none⟩) ∧
    (raiseWithin.foldl (gateStep paperSettings)
      ⟨Store.empty, fun _ => none⟩).store.orders.map TradingOrder.quantity = [20] :=
  ⟨(gate_kept_iff rfl raiseWithin_guarded).1, by decide +kernel⟩

/-- **The gate is bypassed.**  The modification is carried out although a
placement of 2000 would be refused. -/
theorem gate_bypassed :
    ¬ ∀ (settings : Settings) (events : List GateEvent),
      GateKept settings (events.foldl (gateStep settings) ⟨Store.empty, fun _ => none⟩) := by
  intro h
  have hquantity : ((raiseOrder.foldl (gateStep paperSettings)
      ⟨Store.empty, fun _ => none⟩).store.orders.map TradingOrder.quantity) = [2000] := by
    decide +kernel
  have hmem : (2000 : ℤ) ∈ ((raiseOrder.foldl (gateStep paperSettings)
      ⟨Store.empty, fun _ => none⟩).store.orders.map TradingOrder.quantity) := by
    rw [hquantity]; exact List.mem_singleton.2 rfl
  obtain ⟨o, ho, hq⟩ := List.mem_map.1 hmem
  have hmax := (h paperSettings raiseOrder o ho).1
  rw [hq] at hmax
  exact absurd hmax (by decide)

end GnkAlgo
