import GnkAlgo.Trading.Idempotency
import GnkAlgo.Trading.PositionLimit

/-!
# Covered sales

A sale of the paper engine opens a short position where nothing is held under its
key.  What keeps a user's positions long is that every sale still open is covered by
what is held under the key of the sale itself.

* `CoversSales` — the invariant, over the rows of one user;
* `CoversSales.fill`, `CoversSales.insertOrder` — a fill, and a new order;
* `coversSales_processQuote`, `coversSales_paperPlace` — the calls of the engine;
* `paperPlace_result` — what a placement returns, and the one order it adds.
-/

namespace GnkAlgo

open Transition

/-- The open sales of a user are covered by what is held under their keys. -/
structure Database.CoversSales (userId : Uuid) (d : Database) : Prop where
  fits : ∀ o ∈ d.orders, o.userId = userId → o.filledQuantity ≤ o.quantity
  covered : ∀ key, key.userId = userId → d.restingQuantity key .sell ≤ d.positionTotal key

namespace Database

variable {d : Database} {userId : Uuid} {o o' : TradingOrder} {key : PositionKey}
  {side : OrderSide}

theorem CoversSales.restingUnder_nonneg (h : d.CoversSales userId) (ho : o ∈ d.orders)
    (hkey : key.userId = userId) : 0 ≤ o.restingUnder key side := by
  unfold TradingOrder.restingUnder
  split
  · rename_i hopen
    have huser : o.userId = userId := by
      rw [← hkey, ← hopen.1]
      rfl
    have hfits := h.fits o ho huser
    omega
  · exact le_refl 0

theorem CoversSales.restingQuantity_nonneg (h : d.CoversSales userId) (side : OrderSide)
    (hkey : key.userId = userId) : 0 ≤ d.restingQuantity key side := by
  apply List.sum_nonneg
  intro x hx
  obtain ⟨o, ho, rfl⟩ := List.mem_map.1 hx
  exact h.restingUnder_nonneg ho hkey

/-- **A user whose sales are covered holds no short position.** -/
theorem CoversSales.positionTotal_nonneg (h : d.CoversSales userId) (hkey : key.userId = userId) :
    0 ≤ d.positionTotal key :=
  (h.restingQuantity_nonneg .sell hkey).trans (h.covered key hkey)

/-- Nothing of a user's rests where no order is open. -/
theorem restingQuantity_of_closed
    (hclosed : ∀ o ∈ d.orders, o.userId = key.userId → o.status ∉ openOrderStatuses)
    (side : OrderSide) : d.restingQuantity key side = 0 := by
  apply List.sum_eq_zero
  intro x hx
  obtain ⟨o, ho, rfl⟩ := List.mem_map.1 hx
  unfold TradingOrder.restingUnder
  split
  · rename_i hopen
    have huser : o.userId = key.userId := by
      rw [← hopen.1]
      rfl
    exact absurd hopen.2.2 (hclosed o ho huser)
  · rfl

/-- An order that is closed. -/
theorem CoversSales.close (h : d.CoversSales userId) (hids : (d.orders.map TradingOrder.id).Nodup)
    (ho : o ∈ d.orders) (hid : o'.id = o.id) (huser : o'.userId = o.userId)
    (hfits : o.filledQuantity ≤ o.quantity → o'.filledQuantity ≤ o'.quantity)
    (hclosed : o'.status ∉ openOrderStatuses) : (d.setOrder o').CoversSales userId where
  fits := by
    intro y hy hyuser
    rcases Rows.mem_replaceBy hy with rfl | ⟨hy, -⟩
    · exact hfits (h.fits o ho (huser.symm.trans hyuser))
    · exact h.fits y hy hyuser
  covered := by
    intro key hkey
    have hnone : o'.restingUnder key .sell = 0 := TradingOrder.restingUnder_of_closed hclosed
    have hrested : 0 ≤ o.restingUnder key .sell := h.restingUnder_nonneg ho hkey
    have hcovered := h.covered key hkey
    rw [restingQuantity_setOrder key .sell hids ho hid, hnone]
    show _ ≤ d.positionTotal key
    omega

/-- **A fill** moves what it sells from what rests to what is held. -/
theorem CoversSales.fill {s t : Session} (h : s.work.CoversSales userId)
    (hids : (s.work.orders.map TradingOrder.id).Nodup) (ht : s.Tracked) (hfill : s.Fill o t) :
    t.work.CoversSales userId := by
  obtain ⟨ho, hrest, now, quantity, price, hquantity, hfit, rfl⟩ := hfill
  refine ⟨?_, ?_⟩
  · intro y hy hyuser
    rw [Session.fillPaper_orders] at hy
    rcases Rows.mem_replaceBy hy with rfl | ⟨hy, -⟩
    · simp only [TradingOrder.fill_quantity, TradingOrder.fill_filledQuantity]
      omega
    · exact h.fits y hy hyuser
  · intro key hkey
    have hcovered := h.covered key hkey
    rw [Session.positionTotal_fillPaper ht, Session.restingQuantity_fillPaper hids ho hrest.2]
    by_cases hk : o.positionKey = key
    · cases hside : o.side with
      | buy =>
        simp only [hk, if_true, OrderSide.signed, reduceCtorEq, and_false, if_false]
        omega
      | sell =>
        simp only [hk, if_true, OrderSide.signed, and_true]
        omega
    · simp only [hk, if_false, false_and]
      omega

/-- **A new order** of a user none of whose orders is open: a sale of no more than
is held under its key. -/
theorem CoversSales.insertOrder (h : d.CoversSales userId)
    (hclosed : ∀ y ∈ d.orders, y.userId = userId → y.status ∉ openOrderStatuses)
    (hfits : o.filledQuantity ≤ o.quantity)
    (hsale : o.userId = userId → o.side = .sell →
      o.quantity - o.filledQuantity ≤ d.positionTotal o.positionKey) :
    (d.insertOrder o).CoversSales userId where
  fits := by
    intro y hy hyuser
    rcases List.mem_append.1 hy with hy | hy
    · exact h.fits y hy hyuser
    · rw [List.mem_singleton.1 hy]
      exact hfits
  covered := by
    intro key hkey
    have hheld := h.positionTotal_nonneg hkey
    rw [restingQuantity_insertOrder,
      restingQuantity_of_closed fun y hy hyuser => hclosed y hy (hyuser.trans hkey), zero_add]
    show o.restingUnder key .sell ≤ d.positionTotal key
    unfold TradingOrder.restingUnder
    split
    · rename_i hopen
      obtain ⟨rfl, hside, -⟩ := hopen
      exact hsale hkey hside
    · exact hheld

end Database

/-! ## Calls -/

section Calls

variable {settings : Settings} {s : Store} {userId : Uuid}

theorem coversSales_processQuote (h : s.CoversSales userId) (now : Time) (quoted : Uuid)
    (quote : NormalizedQuote) :
    (processQuote settings now s quoted quote).1.CoversSales userId := by
  rcases processQuote_cases settings now s quoted quote with hs | ⟨fs, t, hrun, hs⟩
  · rw [hs]
    exact h
  · rw [hs]
    exact hrun.invariant_of
      (I := fun s => (s.work.orders.map TradingOrder.id).Nodup ∧ s.Tracked)
      (P := fun s => s.work.CoversSales userId) ⟨s.valid.orderIds, Session.tracked_self _⟩
      (fun _ _ _ hI hfill => hfill.frame hI.1 hI.2) h
      (fun _ _ _ hI hP hfill => hP.fill hI.1 hI.2 hfill)

/-- What `place` does with a new order keeps its id. -/
theorem settleNew_id {settings : Settings} {now : Time} {s t : Session} {o o' : TradingOrder}
    {quote : Option NormalizedQuote} (hv : s.stored.Valid)
    (hn : s.stored.nextUuid ≤ s.work.nextUuid)
    (h : settleNew settings now s o quote = .ok (t, o')) : o'.id = o.id := by
  have hold : (if o.validity = .ioc then settleNew.cancelNew now s o else .ok (s, o)) =
      .ok (t, o') → o'.id = o.id := by
    intro h
    split at h <;> cases h <;> rfl
  unfold settleNew at h
  cases quote with
  | none => exact hold h
  | some q =>
    dsimp only at h
    split at h
    · rcases paperFill_cases settings now hv hn o o.quantity q with
        ⟨-, hfill⟩ | ⟨-, -, hfill⟩
      · rw [hfill] at h
        cases h
      · rw [hfill] at h
        cases h
        rfl
    · exact hold h

/-- **What a placement returns**: an exception or an order there is, with nothing
written, or the one order it has added. -/
theorem paperPlace_result (settings : Settings) (now : Time) (s : Store)
    (userId instrumentId : Uuid) (values : OrderValues) (quote : Option NormalizedQuote)
    {r : Store × Except Raised TradingOrder}
    (hr : r = paperPlace settings now s userId instrumentId values quote) :
    (r.1 = s ∧ ((∃ e, r.2 = .error e) ∨ ∃ o ∈ s.orders, o.userId = userId ∧ r.2 = .ok o)) ∨
    ∃ o, r.2 = .ok o ∧ o.id = s.nextUuid ∧
      r.1.terms = s.terms ++ [(paperOrder s.nextUuid userId instrumentId values now).terms] := by
  unfold paperPlace at hr
  split at hr
  · exact Or.inl (hr ▸ ⟨rfl, Or.inl ⟨_, rfl⟩⟩)
  split at hr
  · rename_i existing hexisting
    have hfound := List.find?_some hexisting
    simp only [decide_eq_true_eq] at hfound
    unfold replay at hr
    split at hr
    · exact Or.inl (hr ▸ ⟨rfl, Or.inr ⟨existing, List.mem_of_find?_eq_some hexisting, hfound.1, rfl⟩⟩)
    · exact Or.inl (hr ▸ ⟨rfl, Or.inl ⟨_, rfl⟩⟩)
  split at hr
  · exact Or.inl (hr ▸ ⟨rfl, Or.inl ⟨_, rfl⟩⟩)
  dsimp only at hr
  cases hflush : Session.flush ⟨s.toDatabase,
      s.toDatabase.insertOrder (paperOrder s.nextUuid userId instrumentId values now)⟩ with
  | error e =>
    rw [hflush] at hr
    exact Or.inl (hr ▸ ⟨rfl, Or.inl ⟨_, rfl⟩⟩)
  | ok session =>
    obtain ⟨hvalid, rfl⟩ := Session.flush_eq_ok hflush
    rw [hflush] at hr
    dsimp only at hr
    split at hr
    · exact Or.inl (hr ▸ ⟨rfl, Or.inl ⟨_, rfl⟩⟩)
    · rename_i t o' hsettle
      have hsettled := settleNew_settled hvalid le_rfl hsettle
      have hid := settleNew_id hvalid le_rfl hsettle
      by_cases hcommit : t.work.Valid
      · rw [Session.commitOr_of_valid hcommit] at hr
        refine Or.inr ⟨o', hr ▸ rfl, hid, ?_⟩
        have hinserted : (s.toDatabase.insertOrder
            (paperOrder s.nextUuid userId instrumentId values now)).terms =
            s.terms ++ [(paperOrder s.nextUuid userId instrumentId values now).terms] :=
          List.map_append
        have hmem : paperOrder s.nextUuid userId instrumentId values now ∈
            (s.toDatabase.insertOrder
              (paperOrder s.nextUuid userId instrumentId values now)).orders :=
          List.mem_append_right _ (List.mem_singleton.2 rfl)
        rw [hr, ← hinserted]
        cases hsettled with
        | rests => rfl
        | canceled => exact Database.terms_setOrder hvalid.orderIds hmem rfl
        | filled q _ _ _ _ =>
          refine (congrArg (List.map TradingOrder.terms) (Session.fillPaper_orders ..)).trans ?_
          exact Database.terms_setOrder hvalid.orderIds hmem rfl
      · rw [Session.commitOr_of_not_valid hcommit] at hr
        exact Or.inl (hr ▸ ⟨rfl, Or.inl ⟨_, rfl⟩⟩)

/-- A placement of the user, none of whose orders is open. -/
theorem coversSales_paperPlace (h : s.CoversSales userId)
    (hclosed : ∀ o ∈ s.orders, o.userId = userId → o.status ∉ openOrderStatuses) (now : Time)
    {instrumentId : Uuid} {values : OrderValues} {quote : Option NormalizedQuote}
    (hsale : values.side = .sell →
      values.quantity ≤ s.positionTotal ⟨userId, instrumentId, .paper, values.productType⟩) :
    (paperPlace settings now s userId instrumentId values quote).1.CoversSales userId := by
  rcases paperPlace_cases settings now s userId instrumentId values quote with
    hs | ⟨price, t, -, -, hvalid, hsettled, hs⟩
  · rw [hs]
    exact h
  rw [hs]
  have hone := values.one_le_quantity
  have hplaced : (s.toDatabase.insertOrder
      (paperOrder s.nextUuid userId instrumentId values now)).CoversSales userId := by
    apply h.insertOrder hclosed
    · show (0 : ℤ) ≤ values.quantity
      omega
    · intro _ hside
      show values.quantity - 0 ≤ _
      rw [sub_zero]
      exact hsale hside
  have hmem : paperOrder s.nextUuid userId instrumentId values now ∈ (s.toDatabase.insertOrder
      (paperOrder s.nextUuid userId instrumentId values now)).orders :=
    List.mem_append_right _ (List.mem_singleton.2 rfl)
  cases hsettled with
  | rests => exact hplaced
  | canceled =>
    exact hplaced.close hvalid.orderIds hmem rfl rfl id
      (show OrderStatus.canceled ∉ openOrderStatuses by decide)
  | filled price hq hfit =>
    refine hplaced.fill (s := ⟨_, _⟩) hvalid.orderIds (Session.tracked_self _)
      ⟨hmem, ⟨rfl, ?_⟩, now, _, price, hq, hfit, rfl⟩
    show OrderStatus.open ∈ openOrderStatuses
    decide

end Calls

end GnkAlgo
