import GnkAlgo.Trading.PaperSteps

/-!
# The states of a PAPER order

A PAPER order is resting, filled by one execution, or canceled, and nothing in
between: the engine fills all of an order or nothing of it.

* `TradingOrder.PaperState` — the three states;
* `paperSound_paperCallStep` — every call keeps every PAPER order in one of them;
* `paper_states_sound` — so does every run, and no call of a run is refused for
  the quantity of an execution.
-/

namespace GnkAlgo

open Transition

/-! ## The states -/

/-- The executions of an order. -/
def Database.executionsOf (d : Database) (id : Uuid) : List TradeExecution :=
  d.executions.filter (·.orderId = id)

/-- A price that is not worse than the limit of a limit order, for its side. -/
def TradingOrder.HonorsLimit (o : TradingOrder) (price : ℚ) : Prop :=
  o.orderType = .limit → ∃ limit, o.limitPrice = some limit ∧
    match o.side with
    | .buy => price ≤ limit
    | .sell => limit ≤ price

/-- The states of a PAPER order. -/
inductive TradingOrder.PaperState (d : Database) (o : TradingOrder) : Prop
  | resting : o.status = .open → o.orderType = .limit → o.limitPrice.isSome → o.validity = .day →
      o.filledQuantity = 0 → d.executionsOf o.id = [] → PaperState d o
  | filled (e : TradeExecution) : o.status = .filled → o.filledQuantity = o.quantity →
      d.executionsOf o.id = [e] → e.quantity = o.quantity → o.HonorsLimit e.price → PaperState d o
  | canceled : o.status = .canceled → d.executionsOf o.id = [] → PaperState d o

/-- An order in one of the states, of at least one unit. -/
structure TradingOrder.PaperSound (d : Database) (o : TradingOrder) : Prop where
  quantity : 1 ≤ o.quantity
  state : o.PaperState d

/-- Every PAPER order is. -/
def Database.PaperSound (d : Database) : Prop :=
  ∀ o ∈ d.orders, o.mode = .paper → o.PaperSound d

variable {d d' : Database} {o new : TradingOrder}

/-- The state of an order is a matter of its own executions. -/
theorem TradingOrder.PaperSound.congr (h : o.PaperSound d)
    (hexec : d'.executionsOf o.id = d.executionsOf o.id) : o.PaperSound d' := by
  refine ⟨h.quantity, ?_⟩
  cases h.state with
  | resting hs ht hl hv hf he => exact .resting hs ht hl hv hf (hexec.trans he)
  | filled e hs hf he hq hp => exact .filled e hs hf (hexec.trans he) hq hp
  | canceled hs he => exact .canceled hs (hexec.trans he)

/-- An open order rests. -/
theorem TradingOrder.PaperSound.unfilled (h : o.PaperSound d) (hopen : o.status ∈ openOrderStatuses) :
    o.filledQuantity = 0 ∧ o.validity = .day ∧ o.orderType = .limit ∧ o.status = .open ∧
      d.executionsOf o.id = [] := by
  cases h.state with
  | resting hs ht hl hv hf he => exact ⟨hf, hv, ht, hs, he⟩
  | filled e hs =>
    rw [hs] at hopen
    exact absurd hopen (by decide)
  | canceled hs =>
    rw [hs] at hopen
    exact absurd hopen (by decide)

/-- One row is rewritten, and executions are added to it alone. -/
theorem Database.PaperSound.of_replace (new : TradingOrder)
    (h : ∀ y ∈ d.orders, y.id ≠ new.id → y.mode = .paper → y.PaperSound d)
    (horders : d'.orders = Rows.replaceBy TradingOrder.id new d.orders)
    (hexec : ∀ id, id ≠ new.id → d'.executionsOf id = d.executionsOf id)
    (hnew : new.PaperSound d') : d'.PaperSound := by
  intro y hy hpaper
  rw [horders] at hy
  rcases Rows.mem_replaceBy hy with rfl | ⟨hy, hne⟩
  · exact hnew
  · exact (h y hy hne hpaper).congr (hexec y.id hne)

/-! ## Fills -/

/-- **The price of a fill** is not worse than the limit. -/
theorem fillPrice_honorsLimit {o : TradingOrder} {quote : NormalizedQuote}
    (hcross : isCrossing o quote) (slippageBps : ℚ) :
    o.HonorsLimit (fillPrice o quote slippageBps) := by
  intro htype
  unfold isCrossing at hcross
  rw [htype] at hcross
  cases hlimit : o.limitPrice with
  | none => rw [hlimit] at hcross; cases hcross
  | some limit =>
    refine ⟨limit, rfl, ?_⟩
    rw [hlimit] at hcross
    unfold fillPrice
    rw [htype]
    cases hside : o.side with
    | buy =>
      rw [hside] at hcross
      exact (min_le_right _ _).trans (of_decide_eq_true hcross)
    | sell =>
      rw [hside] at hcross
      exact (of_decide_eq_true hcross).trans (le_max_right _ _)

theorem Session.fillPaper_executions (s : Session) (now : Time) (o : TradingOrder) (quantity : ℤ)
    (price : ℚ) : (s.fillPaper now o quantity price).work.executions = s.work.executions ++
      [o.execution quantity price .paper (some (.paper s.work.nextUuid)) now] := by
  simp [Session.fillPaper, Session.draw]

theorem Session.fillPaper_executionsOf (s : Session) (now : Time) (o : TradingOrder) (quantity : ℤ)
    (price : ℚ) (id : Uuid) :
    (s.fillPaper now o quantity price).work.executionsOf id = s.work.executionsOf id ++
      if o.id = id then [o.execution quantity price .paper (some (.paper s.work.nextUuid)) now]
      else [] := by
  rw [Database.executionsOf, Session.fillPaper_executions, List.filter_append, List.filter_singleton]
  by_cases hid : o.id = id
  · simp [hid, Database.executionsOf]
  · simp [hid, Database.executionsOf]

/-- **Filling** all of an order that nothing is executed of. -/
theorem paperSound_fillPaper {s : Session} {quantity : ℤ} {price : ℚ}
    (h : ∀ y ∈ s.work.orders, y.id ≠ o.id → y.mode = .paper → y.PaperSound s.work)
    (hexec : s.work.executionsOf o.id = []) (hfilled : o.filledQuantity = 0)
    (hquantity : quantity = o.quantity) (hpos : 0 < o.quantity) (hlimit : o.HonorsLimit price)
    (now : Time) : (s.fillPaper now o quantity price).work.PaperSound := by
  refine .of_replace (o.fill quantity price now) h (Session.fillPaper_orders ..) ?_ ?_
  · intro id hne
    rw [Session.fillPaper_executionsOf, if_neg (fun heq => hne heq.symm), List.append_nil]
  · have hfull : (o.fill quantity price now).filledQuantity = o.quantity := by
      simp [hfilled, hquantity]
    refine ⟨by simp; omega, .filled
      (o.execution quantity price .paper (some (.paper s.work.nextUuid)) now) ?_ hfull ?_ hquantity
      hlimit⟩
    · rw [TradingOrder.fill_status_eq_filled, hfilled, zero_add, hquantity]
    · simp only [TradingOrder.fill_id]
      rw [Session.fillPaper_executionsOf, if_pos rfl, hexec, List.nil_append]

/-! ## Placing -/

/-- What the checks of a placement ask of the prices. -/
theorem paperChecks_prices {settings : Settings} {now : Time} {d : Database}
    {userId instrumentId : Uuid} {values : OrderValues} {quote : Option NormalizedQuote}
    (h : paperChecks settings now d userId instrumentId values quote = .ok ()) :
    (values.orderType = .limit → values.limitPrice.isSome) ∧
      (values.orderType = .market → quote.isSome) := by
  simp only [paperChecks, bind, Except.bind] at h
  split at h
  · cases h
  rename_i hlimit
  constructor
  · intro htype
    rw [Option.isSome_iff_ne_none]
    intro hnone
    simp [htype, hnone] at hlimit
  · intro htype
    rw [if_pos htype] at h
    cases quote with
    | none => cases h
    | some q => rfl

/-- Nothing is executed of an order with a new id. -/
theorem Database.Valid.executionsOf_nextUuid (hd : d.Valid) : d.executionsOf d.nextUuid = [] := by
  refine List.filter_eq_nil_iff.2 fun e he heq => ?_
  obtain ⟨y, hy, hid⟩ := List.mem_map.1 (hd.executionOrders e he)
  have := hd.orderUuids y hy
  rw [hid, of_decide_eq_true heq] at this
  exact lt_irrefl _ this

theorem paperSound_paperPlace {settings : Settings} {s : Store} (h : s.PaperSound) (now : Time)
    (userId instrumentId : Uuid) (values : OrderValues) (quote : Option NormalizedQuote) :
    (paperPlace settings now s userId instrumentId values quote).1.PaperSound := by
  rcases paperPlace_settled settings now s userId instrumentId values quote with
    hs | ⟨t, hchecks, hvalid, hsettled, hs⟩
  · rw [hs]; exact h
  rw [hs]
  obtain ⟨hlimit, hmarket⟩ := paperChecks_prices hchecks
  have hone := values.one_le_quantity
  have hnone := s.valid.executionsOf_nextUuid
  generalize ho : paperOrder s.nextUuid userId instrumentId values now = o at hsettled hvalid
  have hothers : ∀ y ∈ (s.toDatabase.insertOrder o).orders, y.id ≠ o.id → y.mode = .paper →
      y.PaperSound (s.toDatabase.insertOrder o) := by
    intro y hy hne hpaper
    rcases List.mem_append.1 hy with hy | hy
    · exact (h y hy hpaper).congr rfl
    · exact absurd (by rw [List.mem_singleton.1 hy]) hne
  subst ho
  cases hsettled with
  | rests hcross hvalidity =>
    intro y hy hpaper
    by_cases hne : y.id = s.nextUuid
    · obtain rfl : y = paperOrder s.nextUuid userId instrumentId values now :=
        hvalid.eq_of_id hy (List.mem_append_right _ (List.mem_singleton.2 rfl)) hne
      -- a market order would have been crossed by the quote it needs
      have htype : values.orderType = .limit := by
        cases htype : values.orderType with
        | limit => rfl
        | market =>
          obtain ⟨q, hq⟩ := Option.isSome_iff_exists.1 (hmarket htype)
          exact absurd (by simp [isCrossing, paperOrder, htype]) (hcross q hq)
      have hday : values.validity = .day := by
        cases hday : values.validity with
        | day => rfl
        | ioc => exact absurd hday hvalidity
      exact ⟨hone, .resting rfl htype (hlimit htype) hday rfl hnone⟩
    · exact hothers y hy hne hpaper
  | canceled =>
    refine .of_replace (d := s.toDatabase.insertOrder _) _ ?_ rfl (fun _ _ => rfl)
      ⟨hone, .canceled rfl hnone⟩
    exact hothers
  | filled q hq hcross hpos hfit =>
    exact paperSound_fillPaper (s := ⟨_, s.toDatabase.insertOrder _⟩) hothers hnone rfl rfl hpos
      (fillPrice_honorsLimit hcross _) now

/-! ## The other calls -/

theorem paperSound_paperCancel {s : Store} (h : s.PaperSound) (ho : o ∈ s.orders) (now : Time) :
    (paperCancel now s o).1.PaperSound := by
  rcases paperCancel_cases now s o with hs | ⟨hrest, hs⟩
  · rw [hs]; exact h
  · rw [hs]
    have hsound := h o ho hrest.1
    obtain ⟨-, -, -, -, hexec⟩ := hsound.unfilled hrest.2
    exact .of_replace (o.canceledAt now) (fun y hy _ => h y hy) rfl (fun _ _ => rfl)
      ⟨hsound.quantity, .canceled rfl hexec⟩

theorem paperSound_paperModify {settings : Settings} {s : Store} (h : s.PaperSound)
    (ho : o ∈ s.orders) (now : Time) (quantity : ℤ) (limitPrice : ℚ)
    (quote : Option NormalizedQuote) :
    (paperModify settings now s o quantity limitPrice quote).1.PaperSound := by
  rcases paperModify_requoted settings now s o quantity limitPrice quote with
    hs | ⟨t, hrest, htype, hquantity, hrequoted, hs⟩
  · rw [hs]; exact h
  rw [hs]
  obtain ⟨hfilled, hday, -, hstatus, hexec⟩ := (h o ho hrest.1).unfilled hrest.2
  have hwritten : (s.toDatabase.setOrder (o.modified quantity limitPrice)).PaperSound :=
    .of_replace (o.modified quantity limitPrice) (fun y hy _ => h y hy) rfl (fun _ _ => rfl)
      ⟨by simp only [TradingOrder.modified]; omega,
        .resting hstatus htype rfl hday hfilled hexec⟩
  cases hrequoted with
  | rests => exact hwritten
  | filled q hq hcross hpos =>
    refine paperSound_fillPaper (o := o.modified quantity limitPrice)
      (s := ⟨_, s.toDatabase.setOrder (o.modified quantity limitPrice)⟩)
      (fun y hy _ => hwritten y hy) hexec hfilled ?_ ?_ (fillPrice_honorsLimit hcross _) now
    · simp [TradingOrder.modified, hfilled]
    · simp only [TradingOrder.modified]; omega

theorem paperSound_processQuote {settings : Settings} {s : Store} (h : s.PaperSound) (now : Time)
    (userId : Uuid) (quote : NormalizedQuote) :
    (processQuote settings now s userId quote).1.PaperSound := by
  rcases processQuote_fills settings now s userId quote with hs | ⟨fs, t, hrun, hs⟩
  · rw [hs]; exact h
  rw [hs]
  refine hrun.invariant (P := fun session => session.work.PaperSound) h ?_
  rintro session o _ hsound hfill
  obtain ⟨hfilled, -, -, -, hexec⟩ := (hsound o hfill.mem hfill.resting.1).unfilled hfill.resting.2
  have hleft := hfill.left
  rw [hfill.eq]
  refine paperSound_fillPaper (fun y hy _ => hsound y hy) hexec hfilled (by omega) (by omega)
    (fillPrice_honorsLimit hfill.crossing _) now

/-! ## Runs -/

/-- A request to the paper engine, or a quote. -/
inductive PaperCall
  | place (now : Time) (userId instrumentId : Uuid) (values : OrderValues)
      (quote : Option NormalizedQuote)
  | cancel (now : Time) (orderId : Uuid)
  | modify (now : Time) (orderId : Uuid) (quantity : ℤ) (limitPrice : ℚ)
      (quote : Option NormalizedQuote)
  | processQuote (now : Time) (userId : Uuid) (quote : NormalizedQuote)

/-- What a call raises. -/
def raisedBy {α : Type} : Except Raised α → Option Raised
  | .ok _ => none
  | .error e => some e

/-- One call, committed or rolled back, and what it raises. -/
def paperCall (settings : Settings) (s : Store) : PaperCall → Store × Option Raised
  | .place now userId instrumentId values quote =>
    (paperPlace settings now s userId instrumentId values quote).map id raisedBy
  | .cancel now orderId =>
    match s.order? orderId with
    | none => (s, none)
    | some o => (paperCancel now s o).map id raisedBy
  | .modify now orderId quantity limitPrice quote =>
    match s.order? orderId with
    | none => (s, none)
    | some o => (paperModify settings now s o quantity limitPrice quote).map id raisedBy
  | .processQuote now userId quote => (processQuote settings now s userId quote).map id raisedBy

/-- **One call** keeps every PAPER order in one of the states. -/
theorem paperSound_paperCall {settings : Settings} {s : Store} (h : s.PaperSound) (e : PaperCall) :
    (paperCall settings s e).1.PaperSound := by
  cases e with
  | place now userId instrumentId values quote =>
    exact paperSound_paperPlace h now userId instrumentId values quote
  | cancel now orderId =>
    rw [paperCall]
    cases ho : s.order? orderId with
    | none => exact h
    | some o => exact paperSound_paperCancel h (Database.order?_mem ho).1 now
  | modify now orderId quantity limitPrice quote =>
    rw [paperCall]
    cases ho : s.order? orderId with
    | none => exact h
    | some o => exact paperSound_paperModify h (Database.order?_mem ho).1 now quantity limitPrice quote
  | processQuote now userId quote => exact paperSound_processQuote h now userId quote

/-! ## The refusal of an execution -/

/-- The refusal of `apply_execution` for the quantity. -/
def invalidQuantity : TradingError := ⟨"INVALID_EXECUTION_QUANTITY", 409⟩

theorem quoteCheck_ne_invalidQuantity {settings : Settings} {now : Time}
    {quote : Option NormalizedQuote} : quoteCheck settings now quote ≠ .error invalidQuantity := by
  intro h
  unfold quoteCheck at h
  split at h
  · simp [invalidQuantity] at h
  · dsimp only at h
    split at h
    · simp [invalidQuantity] at h
    · cases h

theorem riskCheck_ne_invalidQuantity {settings : Settings} {d : Database}
    {userId instrumentId : Uuid} {side : OrderSide} {productType : ProductType} {quantity : ℤ}
    {price : ℚ} {mode : Mode} : riskCheck settings d userId instrumentId side productType quantity
      price mode ≠ .error invalidQuantity := by
  intro h
  simp only [riskCheck, controlCheck, sizeCheck, openOrderCheck, positionCheck, bind, Except.bind,
    invalidQuantity] at h
  split_ifs at h <;> simp at h

/-- The checks of a placement do not look at executions. -/
theorem paperChecks_ne_invalidQuantity {settings : Settings} {now : Time} {d : Database}
    {userId instrumentId : Uuid} {values : OrderValues} {quote : Option NormalizedQuote} :
    paperChecks settings now d userId instrumentId values quote ≠ .error invalidQuantity := by
  intro h
  simp only [paperChecks, bind, Except.bind] at h
  split at h
  · simp [invalidQuantity, throw, throwThe, MonadExceptOf.throw] at h
  split at h
  · split at h
    · rename_i hquote
      cases h
      exact quoteCheck_ne_invalidQuantity hquote
    · split at h
      · simp [invalidQuantity, throw, throwThe, MonadExceptOf.throw] at h
      · exact riskCheck_ne_invalidQuantity h
  · split at h
    · simp [invalidQuantity, throw, throwThe, MonadExceptOf.throw] at h
    · exact riskCheck_ne_invalidQuantity h

/-- A commit is refused by a constraint only. -/
theorem Session.commitOr_ne_trading {α : Type*} (session : Session) (s : Store) (value : α)
    (e : TradingError) : (session.commitOr s (.ok value)).2 ≠ .error (.trading e) := by
  by_cases hvalid : session.work.Valid
  · rw [Session.commitOr_of_valid hvalid]; simp
  · rw [Session.commitOr_of_not_valid hvalid]; simp

/-- No execution is refused of a new order. -/
theorem settleNew_isOk {settings : Settings} {now : Time} {s : Session} {o : TradingOrder}
    {quote : Option NormalizedQuote} (hv : s.stored.Valid)
    (hn : s.stored.nextUuid ≤ s.work.nextUuid) (hfilled : o.filledQuantity = 0)
    (hpos : 0 < o.quantity) : ∃ r, settleNew settings now s o quote = .ok r := by
  unfold settleNew settleNew.cancelNew
  cases quote with
  | none => dsimp only; split <;> exact ⟨_, rfl⟩
  | some q =>
    dsimp only
    split
    · rcases paperFill_cases settings now hv hn o o.quantity q with ⟨hbad, -⟩ | ⟨-, -, hfill⟩
      · omega
      · exact ⟨_, hfill⟩
    · split <;> exact ⟨_, rfl⟩

theorem paperPlace_not_refused (settings : Settings) (now : Time) (s : Store)
    (userId instrumentId : Uuid) (values : OrderValues) (quote : Option NormalizedQuote) :
    (paperPlace settings now s userId instrumentId values quote).2 ≠
      .error (.trading invalidQuantity) := by
  unfold paperPlace
  split
  · simp [invalidQuantity]
  split
  · unfold replay
    split <;> simp [invalidQuantity]
  split
  · rename_i e hchecks
    intro h
    obtain rfl : e = invalidQuantity := by simpa using h
    exact paperChecks_ne_invalidQuantity hchecks
  dsimp only
  have hone := values.one_le_quantity
  cases hflush : Session.flush ⟨s.toDatabase,
      s.toDatabase.insertOrder (paperOrder s.nextUuid userId instrumentId values now)⟩ with
  | error e =>
    unfold Session.flush at hflush
    split at hflush
    · cases hflush
    · cases hflush; simp
  | ok session =>
    obtain ⟨hvalid, rfl⟩ := Session.flush_eq_ok hflush
    obtain ⟨⟨t, o'⟩, hsettle⟩ : ∃ r, settleNew settings now
        ⟨s.toDatabase.insertOrder (paperOrder s.nextUuid userId instrumentId values now),
          s.toDatabase.insertOrder (paperOrder s.nextUuid userId instrumentId values now)⟩
        (paperOrder s.nextUuid userId instrumentId values now) quote = .ok r :=
      settleNew_isOk hvalid le_rfl rfl (show 0 < values.quantity by omega)
    dsimp only
    rw [hsettle]
    exact Session.commitOr_ne_trading t s o' invalidQuantity

theorem paperCancel_not_refused (now : Time) (s : Store) (o : TradingOrder) :
    (paperCancel now s o).2 ≠ .error (.trading invalidQuantity) := by
  unfold paperCancel paperCancelOrder
  split
  · rename_i e herror
    split at herror
    · cases herror; simp [invalidQuantity]
    · cases herror
  · exact Session.commitOr_ne_trading _ s _ invalidQuantity

theorem paperModify_not_refused {settings : Settings} {s : Store} (h : s.PaperSound)
    (ho : o ∈ s.orders) (now : Time) (quantity : ℤ) (limitPrice : ℚ)
    (quote : Option NormalizedQuote) :
    (paperModify settings now s o quantity limitPrice quote).2 ≠
      .error (.trading invalidQuantity) := by
  unfold paperModify
  split
  · rename_i e herror
    intro hraised
    obtain rfl : e = invalidQuantity := by simpa using hraised
    unfold paperModifySession at herror
    split at herror
    · simp [invalidQuantity] at herror
    rename_i hguard
    split at herror
    · simp [invalidQuantity] at herror
    rename_i hquantity
    obtain ⟨hmode, hguard⟩ := not_or.1 hguard
    obtain ⟨hfilled, -⟩ := (h o ho (not_not.1 hmode)).unfilled (not_not.1 (not_or.1 hguard).1)
    cases quote with
    | none => cases herror
    | some q =>
      dsimp only at herror
      split at herror
      · rcases paperFill_cases settings now
            (s := ⟨s.toDatabase, s.toDatabase.setOrder (o.modified quantity limitPrice)⟩) s.valid
            le_rfl (o.modified quantity limitPrice) (quantity - o.filledQuantity) q with
          ⟨hbad, -⟩ | ⟨-, -, hfill⟩
        · simp only [TradingOrder.modified] at hbad
          omega
        · cases hfill.symm.trans herror
      · cases herror
  · exact Session.commitOr_ne_trading _ s _ invalidQuantity

theorem processQuote_not_refused {settings : Settings} {s : Store} (h : s.PaperSound) (now : Time)
    (userId : Uuid) (quote : NormalizedQuote) :
    (processQuote settings now s userId quote).2 ≠ .error (.trading invalidQuantity) := by
  have hleft : ∀ o ∈ restingOrders s.toDatabase userId quote.instrumentId,
      o.filledQuantity < o.quantity := by
    intro o ho
    obtain ⟨hmem, hrest⟩ := restingOrders_resting ho
    have hsound := h o hmem hrest.1
    have hquantity := hsound.quantity
    obtain ⟨hfilled, -⟩ := hsound.unfilled hrest.2
    omega
  obtain ⟨⟨t, filled⟩, hloop⟩ : ∃ r, fillCrossed settings now quote s.begin
      (restingOrders s.toDatabase userId quote.instrumentId) = .ok r :=
    fillCrossed_isOk s.valid le_rfl hleft
  unfold processQuote
  rw [hloop]
  dsimp only
  split
  · exact Session.commitOr_ne_trading t s filled invalidQuantity
  · simp

/-- **No call is refused** for the quantity of an execution. -/
theorem paperCall_not_refused {settings : Settings} {s : Store} (h : s.PaperSound) (e : PaperCall) :
    (paperCall settings s e).2 ≠ some (.trading invalidQuantity) := by
  have hraised : ∀ {α : Type} (result : Except Raised α), result ≠ .error (.trading invalidQuantity) →
      raisedBy result ≠ some (.trading invalidQuantity) := by
    intro α result hne heq
    cases result with
    | ok value => cases heq
    | error e => exact hne (congrArg Except.error (Option.some_inj.1 heq))
  cases e with
  | place now userId instrumentId values quote =>
    exact hraised _ (paperPlace_not_refused settings now s userId instrumentId values quote)
  | cancel now orderId =>
    rw [paperCall]
    cases s.order? orderId with
    | none => simp
    | some o => exact hraised _ (paperCancel_not_refused now s o)
  | modify now orderId quantity limitPrice quote =>
    rw [paperCall]
    cases ho : s.order? orderId with
    | none => simp
    | some o =>
      exact hraised _ (paperModify_not_refused h (Database.order?_mem ho).1 now quantity limitPrice
        quote)
  | processQuote now userId quote => exact hraised _ (processQuote_not_refused h now userId quote)

/-- **Runs.**  From a store without PAPER orders, every PAPER order of every
committed state is resting, filled by one execution or canceled; and no call is
ever refused for the quantity of an execution. -/
theorem paper_states_sound {settings : Settings} {s t : Store} {events : List PaperCall}
    (h : ∀ o ∈ s.orders, o.mode ≠ .paper)
    (hrun : Run (Steps fun s e => (paperCall settings s e).1) s events t) :
    (∀ o ∈ t.orders, o.mode = .paper → o.PaperState t.toDatabase) ∧
    ∀ e, (paperCall settings t e).2 ≠ some (.trading ⟨"INVALID_EXECUTION_QUANTITY", 409⟩) := by
  have hsound : t.PaperSound := by
    apply hrun.invariant (P := fun s => s.PaperSound)
    · intro o ho hpaper
      exact absurd hpaper (h o ho)
    · rintro s e _ hs rfl
      exact paperSound_paperCall hs e
  exact ⟨fun o ho hpaper => (hsound o ho hpaper).state, paperCall_not_refused hsound⟩

/-- An order that rests, is raised, and is filled by a quote. -/
def restThenFill : List PaperCall := [
  .place 0 7 3 tenAtHundred none,
  .modify 1 0 15 101 none,
  .processQuote 2 7 (crossingQuote 2)]

theorem paper_states_sound_restThenFill :
    ∃ o ∈ (restThenFill.foldl (fun s e => (paperCall { tradingMode := .paper } s e).1)
      Store.empty).orders, o.mode = .paper ∧ o.PaperState (restThenFill.foldl
        (fun s e => (paperCall { tradingMode := .paper } s e).1) Store.empty).toDatabase := by
  obtain ⟨o, ho, hpaper⟩ : ∃ o ∈ (restThenFill.foldl
      (fun s e => (paperCall { tradingMode := .paper } s e).1) Store.empty).orders,
      o.mode = .paper := by
    decide +kernel
  exact ⟨o, ho, hpaper, (paper_states_sound (s := Store.empty) (fun _ ho => by cases ho)
    (run_foldl _ _ restThenFill)).1 o ho hpaper⟩

end GnkAlgo
