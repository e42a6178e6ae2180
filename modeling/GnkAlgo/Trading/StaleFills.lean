import GnkAlgo.Trading.LiveSteps
import GnkAlgo.Trading.PaperStates

/-!
# Fills and the age of the quote

`PaperTradingEngine` asks `_quote_check` about the quote of a MARKET order, and
about no other: a LIMIT order that the latest quote crosses, new or modified, is
filled from it however old it is.

* `PaperCall.Fresh` — the quote of the call passes the check at that moment;
* `PaperCall.CrossesLimit` — the call fills a LIMIT order;
* `fresh_fill_iff` — a call that records an execution has a fresh quote exactly when
  it does not fill a LIMIT order from another.
-/

namespace GnkAlgo

/-! ## Calls that fill -/

/-- The quote a call is priced from passes `_quote_check` when the call is made. -/
def PaperCall.Fresh (settings : Settings) : PaperCall → Prop
  | .place now _ _ _ quote | .modify now _ _ _ quote =>
    ∃ q, quoteCheck settings now quote = .ok q
  | .cancel .. | .processQuote .. => True

/-- A new LIMIT order that the quote crosses and the engine lets through. -/
structure PlacesCrossed (settings : Settings) (now : Time) (s : Store)
    (userId instrumentId : Uuid) (values : OrderValues) (q : NormalizedQuote) : Prop where
  mode : settings.tradingMode = .paper
  client : orderOfClient? s.toDatabase userId values.clientOrderId = none
  orderType : values.orderType = .limit
  crossing : isCrossing (paperOrder s.nextUuid userId instrumentId values now) q
  risk : riskCheck settings s.toDatabase userId instrumentId values.side values.productType
    values.quantity q.ltp .paper = .ok ()

/-- A resting LIMIT order that the quote crosses once it is modified, with a quantity
left to fill. -/
structure ModifiesCrossed (o : TradingOrder) (quantity : ℤ) (limitPrice : ℚ)
    (q : NormalizedQuote) : Prop where
  resting : o.Resting
  orderType : o.orderType = .limit
  least : max 1 o.filledQuantity ≤ quantity
  left : o.filledQuantity < quantity
  crossing : isCrossing (o.modified quantity limitPrice) q

/-- The call fills a LIMIT order. -/
def PaperCall.CrossesLimit (settings : Settings) (s : Store) : PaperCall → Prop
  | .place now userId instrumentId values quote =>
    ∃ q ∈ quote, PlacesCrossed settings now s userId instrumentId values q
  | .modify _ orderId quantity limitPrice quote =>
    ∃ q ∈ quote, ∃ o ∈ s.order? orderId, ModifiesCrossed o quantity limitPrice q
  | .cancel .. | .processQuote .. => False

section Place

variable {settings : Settings} {now : Time} {s : Store} {userId instrumentId : Uuid}
  {values : OrderValues} {quote : Option NormalizedQuote} {q : NormalizedQuote}

/-- A LIMIT order with a limit is checked at the price of the quote, whatever its age. -/
theorem paperChecks_limit (htype : values.orderType = .limit) (hlimit : values.limitPrice ≠ none) :
    paperChecks settings now s.toDatabase userId instrumentId values (some q) =
      riskCheck settings s.toDatabase userId instrumentId values.side values.productType
        values.quantity q.ltp .paper := by
  have hmarket : values.orderType ≠ .market := by rw [htype]; decide
  unfold paperChecks
  rw [if_neg fun h => hlimit h.2, if_neg hmarket]
  rfl

/-- A MARKET order that passes the checks has a fresh quote. -/
theorem paperChecks_market (htype : values.orderType = .market)
    (h : paperChecks settings now s.toDatabase userId instrumentId values quote = .ok ()) :
    ∃ q, quoteCheck settings now quote = .ok q := by
  have hlimit : ¬ (values.orderType = .limit ∧ values.limitPrice = none) := by
    rw [htype]
    exact fun h => nomatch h.1
  unfold paperChecks at h
  rw [if_neg hlimit, if_pos htype] at h
  cases hcheck : quoteCheck settings now quote with
  | ok q => exact ⟨q, rfl⟩
  | error e =>
    rw [hcheck] at h
    cases h

theorem limitPrice_of_crossing (htype : values.orderType = .limit)
    (hcross : isCrossing (paperOrder s.nextUuid userId instrumentId values now) q) :
    values.limitPrice ≠ none := by
  intro hnone
  unfold isCrossing paperOrder at hcross
  rw [htype, hnone] at hcross
  cases hcross

/-- **A crossed LIMIT order is filled**, whatever the age of the quote. -/
theorem PlacesCrossed.records (h : PlacesCrossed settings now s userId instrumentId values q) :
    (paperPlace settings now s userId instrumentId values (some q)).1.executions ≠ s.executions := by
  have hprice := limitPrice_of_crossing h.orderType h.crossing
  have hchecks : paperChecks settings now s.toDatabase userId instrumentId values (some q) = _ :=
    (paperChecks_limit h.orderType hprice).trans h.risk
  have hvalid := s.valid.insertOrder (o := paperOrder s.nextUuid userId instrumentId values now) rfl
    (clientKey_not_mem h.client)
  have hone := values.one_le_quantity
  have hmem : paperOrder s.nextUuid userId instrumentId values now ∈ (s.toDatabase.insertOrder
      (paperOrder s.nextUuid userId instrumentId values now)).orders :=
    List.mem_append_right _ (List.mem_singleton.2 rfl)
  unfold paperPlace
  rw [if_neg (not_not.2 h.mode), h.client]
  dsimp only
  have hflush : Session.flush ⟨s.toDatabase, s.toDatabase.insertOrder
      (paperOrder s.nextUuid userId instrumentId values now)⟩ = .ok ⟨_, _⟩ := if_pos hvalid
  rw [hchecks, hflush]
  generalize hd : s.toDatabase.insertOrder
    (paperOrder s.nextUuid userId instrumentId values now) = d at hvalid hmem
  have hsame : d.executions = s.executions := by rw [← hd]; rfl
  dsimp only
  unfold settleNew
  dsimp only
  rw [if_pos h.crossing]
  rcases paperFill_cases settings now (s := ⟨d, d⟩) hvalid le_rfl
    (paperOrder s.nextUuid userId instrumentId values now) values.quantity q with
    ⟨hbad, -⟩ | ⟨-, -, hfill⟩
  · have hfits : ¬ values.quantity < 0 + values.quantity := by omega
    exact absurd hbad (not_or.2 ⟨by omega, hfits⟩)
  · have hfill' : paperFill settings now ⟨d, d⟩
        (paperOrder s.nextUuid userId instrumentId values now)
        (paperOrder s.nextUuid userId instrumentId values now).quantity q = _ := hfill
    rw [hfill']
    dsimp only
    rw [Session.commitOr_of_valid (Session.valid_fillPaper (s := ⟨d, d⟩) hvalid hmem
      (fun h => h) _ _ _)]
    dsimp only
    rw [Session.fillPaper_executions, hsame]
    exact fun heq => absurd (congrArg List.length heq) (by simp)

/-- What records an execution is a MARKET order with a fresh quote or a crossed LIMIT order. -/
theorem fresh_or_placesCrossed
    (h : (paperPlace settings now s userId instrumentId values quote).1.executions ≠ s.executions) :
    (∃ q, quoteCheck settings now quote = .ok q) ∨
      ∃ q ∈ quote, PlacesCrossed settings now s userId instrumentId values q := by
  have hmode : settings.tradingMode = .paper := by
    by_contra hmode
    unfold paperPlace at h
    rw [if_pos hmode] at h
    exact h rfl
  have hclient : orderOfClient? s.toDatabase userId values.clientOrderId = none := by
    unfold paperPlace at h
    rw [if_neg (not_not.2 hmode)] at h
    cases hfound : orderOfClient? s.toDatabase userId values.clientOrderId with
    | none => rfl
    | some existing =>
      rw [hfound] at h
      exact absurd rfl h
  rcases paperPlace_settled settings now s userId instrumentId values quote with
    hs | ⟨t, hchecks, -, hsettled, hs⟩
  · rw [hs] at h
    exact absurd rfl h
  rw [hs] at h
  cases htype : values.orderType with
  | market => exact Or.inl (paperChecks_market htype hchecks)
  | limit =>
    cases hsettled with
    | rests => exact absurd rfl h
    | canceled => exact absurd rfl h
    | filled q hq hcross _ _ =>
      subst hq
      refine Or.inr ⟨q, rfl, hmode, hclient, htype, hcross, ?_⟩
      rwa [paperChecks_limit htype (limitPrice_of_crossing htype hcross)] at hchecks

end Place

section Modify

variable {settings : Settings} {now : Time} {s : Store} {o : TradingOrder} {quantity : ℤ}
  {limitPrice : ℚ} {quote : Option NormalizedQuote} {q : NormalizedQuote}

/-- **A LIMIT order crossed by its modification is filled**, whatever the age of the
quote. -/
theorem ModifiesCrossed.records (h : ModifiesCrossed o quantity limitPrice q) (ho : o ∈ s.orders) :
    (paperModify settings now s o quantity limitPrice (some q)).1.executions ≠ s.executions := by
  obtain ⟨hmode, hopen⟩ := h.resting
  have hmodified : (s.toDatabase.setOrder (o.modified quantity limitPrice)).Valid :=
    s.valid.setOrder (x := o.modified quantity limitPrice) ho rfl rfl
  have hguard : ¬ (o.mode ≠ .paper ∨ o.status ∉ openOrderStatuses ∨ o.orderType ≠ .limit) := by
    simp [hmode, hopen, h.orderType]
  unfold paperModify paperModifySession
  rw [if_neg hguard, if_neg (not_lt.2 h.least)]
  dsimp only
  rw [if_pos h.crossing]
  rcases paperFill_cases settings now
      (s := ⟨s.toDatabase, s.toDatabase.setOrder (o.modified quantity limitPrice)⟩) s.valid le_rfl
      (o.modified quantity limitPrice) (quantity - o.filledQuantity) q with
    ⟨hbad, -⟩ | ⟨-, -, hfill⟩
  · have hleft := h.left
    have hfits : ¬ quantity < o.filledQuantity + (quantity - o.filledQuantity) := by omega
    exact absurd hbad (not_or.2 ⟨by omega, hfits⟩)
  · have hfill' : paperFill settings now
        { s.begin with work := s.begin.work.setOrder (o.modified quantity limitPrice) }
        (o.modified quantity limitPrice) (quantity - o.filledQuantity) q = _ := hfill
    rw [hfill']
    dsimp only
    rw [Session.commitOr_of_valid (Session.valid_fillPaper
      (s := ⟨s.toDatabase, s.toDatabase.setOrder (o.modified quantity limitPrice)⟩) hmodified
      (Rows.mem_replaceBy_self ho rfl) (fun h => h) _ _ _)]
    dsimp only
    rw [Session.fillPaper_executions]
    exact fun heq => absurd (congrArg List.length heq) (by simp)

theorem modifiesCrossed_of_records
    (h : (paperModify settings now s o quantity limitPrice quote).1.executions ≠ s.executions) :
    ∃ q ∈ quote, ModifiesCrossed o quantity limitPrice q := by
  rcases paperModify_requoted settings now s o quantity limitPrice quote with
    hs | ⟨t, hresting, htype, hleast, hrequoted, hs⟩
  · rw [hs] at h
    exact absurd rfl h
  rw [hs] at h
  cases hrequoted with
  | rests => exact absurd rfl h
  | filled q hq hcross hleft =>
    exact ⟨q, hq, hresting, htype, hleast, by omega, hcross⟩

end Modify

/-- **Stale prices.**  For every state, every placement or modification and every
latest quote: an execution is recorded only from a quote that passes `_quote_check`
at that moment exactly when the call does not fill a LIMIT order from a quote that
fails it. -/
theorem fresh_fill_iff (settings : Settings) (s : Store) (call : PaperCall) :
    ((paperCall settings s call).1.executions ≠ s.executions → call.Fresh settings) ↔
      (call.CrossesLimit settings s → call.Fresh settings) := by
  cases call with
  | place now userId instrumentId values quote =>
    constructor
    · rintro h ⟨q, rfl, hcrossed⟩
      exact h hcrossed.records
    · intro h hrecords
      rcases fresh_or_placesCrossed hrecords with hfresh | hcrossed
      · exact hfresh
      · exact h hcrossed
  | cancel now orderId => exact iff_of_true (fun _ => trivial) nofun
  | modify now orderId quantity limitPrice quote =>
    have hmodify : ∀ o, s.order? orderId = some o →
        (paperCall settings s (.modify now orderId quantity limitPrice quote)).1 =
          (paperModify settings now s o quantity limitPrice quote).1 := by
      intro o ho
      unfold paperCall
      dsimp only
      rw [ho]
      rfl
    constructor
    · rintro h ⟨q, rfl, o, ho, hcrossed⟩
      refine h ?_
      rw [hmodify o ho]
      exact hcrossed.records (Database.order?_mem ho).1
    · intro h hrecords
      cases ho : s.order? orderId with
      | none =>
        unfold paperCall at hrecords
        dsimp only at hrecords
        rw [ho] at hrecords
        exact absurd rfl hrecords
      | some o =>
        rw [hmodify o ho] at hrecords
        obtain ⟨q, hq, hcrossed⟩ := modifiesCrossed_of_records hrecords
        exact h ⟨q, hq, o, ho, hcrossed⟩
  | processQuote now userId quote => exact iff_of_true (fun _ => trivial) nofun

/-! ### A quote of an hour ago -/

def hourOldQuote : NormalizedQuote := { instrumentId := 3, receivedAt := 0, ltp := 90 }

/-- A buy at no more than 100, with a quote that is an hour old. -/
def staleCrossing : PaperCall :=
  .place (3600 * 1000000) 7 3 tenAtHundred (some hourOldQuote)

theorem stale_fill :
    (paperCall { tradingMode := .paper } Store.empty staleCrossing).1.executions ≠ [] ∧
      ¬ staleCrossing.Fresh { tradingMode := .paper } := by
  have hstale : (quoteCheck { tradingMode := .paper } (3600 * 1000000) (some hourOldQuote)).isOk =
      false := by
    decide +kernel
  refine ⟨by decide +kernel, fun ⟨q, hq⟩ => ?_⟩
  rw [hq] at hstale
  cases hstale

end GnkAlgo
