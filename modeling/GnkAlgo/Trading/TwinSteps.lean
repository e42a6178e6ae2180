import GnkAlgo.Trading.PaperDesk
import GnkAlgo.Trading.Twins

/-!
# One operation on two databases that look alike

Every operation of a user does the same to two databases that look alike to the
user, and answers the same.

* `SessionTwin` — the sessions of the operation;
* `SameEnd` — its end on either side;
* `Twin.paperPlace`, `Twin.placeBegin`, `Twin.cancelBegin`, `Twin.modifyBegin`,
  `Twin.finish`, `Twin.processQuote`, `Twin.reconcile` — the operations.
-/

namespace GnkAlgo

open TwoRuns

variable {u : Uuid} {r : Renaming} {s s' : Store}

/-! ## Sessions -/

/-- Two sessions of the user's operation. -/
structure SessionTwin (u : Uuid) (r : Renaming) (s s' : Store) (a b : Session) : Prop where
  stored : Database.Alike u r a.stored b.stored
  work : Twin u r s s' a.work b.work

/-- The same operation ends with contents that look alike and, up to names, with
one result. -/
structure SameEnd {α β : Type*} (u : Uuid) (r : Renaming) (s s' : Store) (f : β → α)
    (x : Store × α) (y : Store × β) : Prop where
  twin : Twin u r s s' x.1.toDatabase y.1.toDatabase
  result : x.2 = f y.2

/-- The same for an operation that returns an order, which is one of the user. -/
structure OrderEnd (u : Uuid) (r : Renaming) (s s' : Store)
    (x y : Store × Except Raised TradingOrder) : Prop
    extends SameEnd u r s s' (Except.map (·.rename r)) x y where
  known : ∀ o, y.2 = .ok o → (o.id, u) ∈ y.1.toDatabase.owners

theorem OrderEnd.refused {t t' : Store} (h : Twin u r s s' t.toDatabase t'.toDatabase)
    (e : Raised) : OrderEnd u r s s' (t, .error e) (t', .error e) :=
  ⟨⟨h, rfl⟩, fun _ ho => nomatch ho⟩

namespace SessionTwin

variable {a b : Session} {o : TradingOrder}

theorem begin (h : Database.Alike u r s.toDatabase s'.toDatabase) :
    SessionTwin u r s s' s.begin s'.begin := ⟨h, .refl h⟩

theorem setOrder (h : SessionTwin u r s s' a b) (ho : o.userId = u)
    (hrow : (o.id, u) ∈ b.work.owners) :
    SessionTwin u r s s' { a with work := a.work.setOrder (o.rename r) }
      { b with work := b.work.setOrder o } := ⟨h.stored, h.work.setOrder ho hrow⟩

theorem draw (h : SessionTwin u r s s' a b) : SessionTwin u r s s' a.draw b.draw :=
  ⟨h.stored, h.work.draw⟩

theorem bookPosition (h : SessionTwin u r s s' a b) (ho : o.userId = u) (quantity : ℤ) (price : ℚ) :
    SessionTwin u r s s' (a.bookPosition (o.rename r) quantity price)
      (b.bookPosition o quantity price) := by
  have hkey : o.positionKey.userId = u := ho
  have hfind : a.stored.position? (o.rename r).positionKey = b.stored.position? o.positionKey :=
    h.stored.position? hkey
  unfold Session.bookPosition
  rw [hfind]
  split
  · exact ⟨h.stored, h.work.updatePosition hkey fun p => p.book_positionKey ..⟩
  · exact ⟨h.stored, h.work.addPosition ho⟩

/-- An order that keeps its id and its owner leaves the owners. -/
theorem owners_setOrder (h : SessionTwin u r s s' a b) (ho : o.userId = u)
    (hrow : (o.id, u) ∈ b.work.owners) : (b.work.setOrder o).owners = b.work.owners :=
  Rows.map_replaceBy fun y hy hid => by rw [hid, h.work.right.owned hrow y hy hid, ho]

theorem owners_bookPosition (b : Session) (o : TradingOrder) (quantity : ℤ) (price : ℚ) :
    (b.bookPosition o quantity price).work.owners = b.work.owners := by
  unfold Session.bookPosition
  split <;> rfl

theorem bookExecution (h : SessionTwin u r s s' a b) (ho : o.userId = u)
    (hrow : (o.id, u) ∈ b.work.owners) (quantity : ℤ) (price : ℚ) (source : ExecutionSource)
    (id : Option BrokerExecutionId) (at' : Time) :
    SessionTwin u r s s'
        (a.bookExecution (o.rename r) quantity price source (id.map (·.rename r)) at')
        (b.bookExecution o quantity price source id at') ∧
      (b.bookExecution o quantity price source id at').work.owners = b.work.owners := by
  have hadded : SessionTwin u r s s'
      { a with work := a.work.addExecution ((o.execution quantity price source id at').rename r) }
      { b with work := b.work.addExecution (o.execution quantity price source id at') } :=
    ⟨h.stored, h.work.addExecution (e := o.execution quantity price source id at') ho hrow⟩
  refine ⟨(hadded.setOrder (o := o.fill quantity price at') ho hrow).bookPosition ho quantity price, ?_⟩
  exact (owners_bookPosition ..).trans
    (hadded.owners_setOrder (o := o.fill quantity price at') ho hrow)

theorem recorded? (h : SessionTwin u r s s' a b) (ho : o.userId = u)
    (id : Option BrokerExecutionId) : a.recorded? (o.rename r) (id.map (·.rename r)) =
      (b.recorded? o id).map (·.rename r) := by
  cases id with
  | none => rfl
  | some i =>
    have htruthy : (i.rename r).truthy = i.truthy := by cases i <;> rfl
    rw [Session.recorded?, Session.recorded?, Option.map_some, Option.filter_some,
      Option.filter_some, htruthy]
    split
    · have hfind := h.stored.execution? i
      rw [← ho] at hfind
      exact hfind
    · rfl

/-- **Booking an execution.** -/
theorem applyExecution (h : SessionTwin u r s s' a b) (ho : o.userId = u)
    (hrow : (o.id, u) ∈ b.work.owners) (now : Time) (quantity : ℤ) (price : ℚ)
    (source : ExecutionSource) (id : Option BrokerExecutionId) (executedAt : Option Time) :
    Agree (fun x y => SessionTwin u r s s' x.1 y.1 ∧ x.2 = y.2.rename r ∧
        y.1.work.owners = b.work.owners ∧ y.2.id = o.id)
      (applyExecution now a (o.rename r) quantity price source (id.map (·.rename r)) executedAt)
      (applyExecution now b o quantity price source id executedAt) := by
  unfold GnkAlgo.applyExecution
  rw [h.recorded? ho]
  cases b.recorded? o id with
  | some e => exact .ok ⟨h, rfl, rfl, rfl⟩
  | none =>
    dsimp only [Option.map_none]
    by_cases hq : quantity ≤ 0 ∨ o.quantity < o.filledQuantity + quantity
    · rw [if_pos hq, if_pos (show quantity ≤ 0 ∨
        (o.rename r).quantity < (o.rename r).filledQuantity + quantity from hq)]
      exact .error _
    · rw [if_neg hq, if_neg (show ¬ (quantity ≤ 0 ∨
        (o.rename r).quantity < (o.rename r).filledQuantity + quantity) from hq)]
      obtain ⟨hbooked, howners⟩ := h.bookExecution ho hrow quantity price source id
        (executedAt.getD now)
      exact .ok ⟨hbooked, rfl, howners, rfl⟩

/-- A fill under an id that is drawn on either side. -/
theorem paperFill (h : SessionTwin u r s s' a b) (ho : o.userId = u)
    (hrow : (o.id, u) ∈ b.work.owners) (settings : Settings) (now : Time) (quantity : ℤ)
    (quote : NormalizedQuote) :
    Agree (fun x y => SessionTwin u r s s' x.1 y.1 ∧ x.2 = y.2.rename r ∧
        y.1.work.owners = b.work.owners ∧ y.2.id = o.id)
      (paperFill settings now a (o.rename r) quantity quote)
      (paperFill settings now b o quantity quote) := by
  have hfill := h.draw.applyExecution ho hrow now quantity
    (fillPrice o quote settings.paperSlippageBps) .paper (some (.paper b.work.nextUuid)) none
  have hid : (some (BrokerExecutionId.paper b.work.nextUuid)).map (·.rename r) =
      some (.paper a.work.nextUuid) := by
    rw [h.work.alike.nextUuid]
    rfl
  rw [hid] at hfill
  exact hfill

/-- Both sides commit, or neither does. -/
theorem commitOr (h : SessionTwin u r s s' a b)
    (hbegin : Database.Alike u r s.toDatabase s'.toDatabase) (hs : s.toDatabase.Tenanted)
    (hs' : s'.toDatabase.Tenanted) {α β : Type*} {f : β → α} (value : Except Raised β) :
    SameEnd u r s s' (Except.map f) (a.commitOr s (value.map f)) (b.commitOr s' value) := by
  by_cases hvalid : b.work.Valid
  · rw [Session.commitOr_of_valid hvalid,
      Session.commitOr_of_valid ((h.work.valid_iff hs hs').2 hvalid)]
    exact ⟨h.work, rfl⟩
  · rw [Session.commitOr_of_not_valid hvalid,
      Session.commitOr_of_not_valid (mt (h.work.valid_iff hs hs').1 hvalid)]
    exact ⟨.refl hbegin, rfl⟩

theorem commitOrder (h : SessionTwin u r s s' a b)
    (hbegin : Database.Alike u r s.toDatabase s'.toDatabase) (hs : s.toDatabase.Tenanted)
    (hs' : s'.toDatabase.Tenanted) (hknown : (o.id, u) ∈ b.work.owners) :
    OrderEnd u r s s' (a.commitOr s (.ok (o.rename r))) (b.commitOr s' (.ok o)) := by
  refine ⟨h.commitOr hbegin hs hs' (f := (·.rename r)) (.ok o), fun o' ho' => ?_⟩
  by_cases hvalid : b.work.Valid
  · rw [Session.commitOr_of_valid hvalid] at ho' ⊢
    cases ho'
    exact hknown
  · rw [Session.commitOr_of_not_valid hvalid] at ho'
    cases ho'

end SessionTwin

/-! ## The checks -/

section Checks

variable {d t : Database}

theorem Database.Alike.riskCheck (h : Database.Alike u r d t) (settings : Settings)
    (instrumentId : Uuid) (side : OrderSide) (productType : ProductType) (quantity : ℤ) (price : ℚ)
    (mode : Mode) : riskCheck settings d u instrumentId side productType quantity price mode =
      GnkAlgo.riskCheck settings t u instrumentId side productType quantity price mode := by
  unfold GnkAlgo.riskCheck controlCheck openOrderCheck positionCheck
  rw [h.isHalted, h.openOrderCount, h.heldQuantity rfl]

theorem Database.Alike.paperChecks (h : Database.Alike u r d t) (settings : Settings) (now : Time)
    (instrumentId : Uuid) (values : OrderValues) (quote : Option NormalizedQuote) :
    paperChecks settings now d u instrumentId values quote =
      GnkAlgo.paperChecks settings now t u instrumentId values quote := by
  unfold GnkAlgo.paperChecks
  simp only [h.riskCheck]

theorem Database.Alike.liveChecks (h : Database.Alike u r d t) (settings : Settings) (now : Time)
    (instrumentId : Uuid) (values : OrderValues) (quote : Option NormalizedQuote) :
    liveChecks settings now d u instrumentId values quote =
      GnkAlgo.liveChecks settings now t u instrumentId values quote := by
  unfold GnkAlgo.liveChecks
  simp only [h.riskCheck]

theorem replay_rename (r : Renaming) (o : TradingOrder) (instrumentId : Uuid)
    (values : OrderValues) :
    replay (o.rename r) instrumentId values = (replay o instrumentId values).map (·.rename r) := by
  unfold replay
  have hmatches : matchesValues (o.rename r) instrumentId values =
      matchesValues o instrumentId values := rfl
  rw [hmatches]
  split <;> rfl

end Checks

/-! ## The paper engine -/

section Paper

variable {a b : Session} {o : TradingOrder}

theorem SessionTwin.cancelNew (h : SessionTwin u r s s' a b) (ho : o.userId = u)
    (hrow : (o.id, u) ∈ b.work.owners) (now : Time) :
    Agree (fun x y => SessionTwin u r s s' x.1 y.1 ∧ x.2 = y.2.rename r ∧
        (y.2.id, u) ∈ y.1.work.owners)
      (settleNew.cancelNew now a (o.rename r)) (settleNew.cancelNew now b o) :=
  .ok ⟨h.setOrder (o := { o with status := .canceled, completedAt := some now }) ho hrow, rfl,
    (h.owners_setOrder (o := { o with status := .canceled, completedAt := some now }) ho
      hrow).symm ▸ hrow⟩

theorem SessionTwin.settleNew (h : SessionTwin u r s s' a b) (ho : o.userId = u)
    (hrow : (o.id, u) ∈ b.work.owners) (settings : Settings) (now : Time)
    (quote : Option NormalizedQuote) :
    Agree (fun x y => SessionTwin u r s s' x.1 y.1 ∧ x.2 = y.2.rename r ∧
        (y.2.id, u) ∈ y.1.work.owners)
      (settleNew settings now a (o.rename r) quote) (settleNew settings now b o quote) := by
  have hrest : Agree (fun x y => SessionTwin u r s s' x.1 y.1 ∧ x.2 = y.2.rename r ∧
        (y.2.id, u) ∈ y.1.work.owners)
      (if (o.rename r).validity = .ioc then settleNew.cancelNew now a (o.rename r)
        else .ok (a, o.rename r))
      (if o.validity = .ioc then settleNew.cancelNew now b o else .ok (b, o)) := by
    by_cases hioc : o.validity = .ioc
    · rw [if_pos hioc, if_pos (show (o.rename r).validity = .ioc from hioc)]
      exact h.cancelNew ho hrow now
    · rw [if_neg hioc, if_neg (show ¬ (o.rename r).validity = .ioc from hioc)]
      exact .ok ⟨h, rfl, hrow⟩
  unfold GnkAlgo.settleNew
  cases quote with
  | none => exact hrest
  | some q =>
    dsimp only
    by_cases hcross : isCrossing o q = true
    · rw [if_pos hcross, if_pos (show isCrossing (o.rename r) q = true from hcross)]
      refine (h.paperFill ho hrow settings now o.quantity q).mono ?_
      rintro x y ⟨hsession, hname, howners, hid⟩
      exact ⟨hsession, hname, by rw [howners, hid]; exact hrow⟩
    · rw [if_neg hcross, if_neg (show ¬ isCrossing (o.rename r) q = true from hcross)]
      exact hrest

theorem owner_of_mem {d : Database} {o : TradingOrder} (ho : o ∈ d.orders) (hu : o.userId = u) :
    (o.id, u) ∈ d.owners := List.mem_map.2 ⟨o, ho, by rw [hu]⟩

/-- A second placement under a client id. -/
theorem Twin.replay (h : Database.Alike u r s.toDatabase s'.toDatabase) {clientOrderId : String}
    (hfind : orderOfClient? s'.toDatabase u clientOrderId = some o) (instrumentId : Uuid)
    (values : OrderValues) : OrderEnd u r s s' (s, replay (o.rename r) instrumentId values)
      (s', GnkAlgo.replay o instrumentId values) := by
  refine ⟨⟨.refl h, replay_rename r o instrumentId values⟩, fun o' ho' => ?_⟩
  have hp := List.find?_some hfind
  rw [decide_eq_true_eq] at hp
  unfold GnkAlgo.replay at ho'
  split at ho'
  · cases ho'
    exact owner_of_mem (List.mem_of_find?_eq_some hfind) hp.1
  · cases ho'

theorem owner_insertOrder (d : Database) (o : TradingOrder) :
    (o.id, o.userId) ∈ (d.insertOrder o).owners :=
  List.mem_map.2 ⟨o, List.mem_append_right _ (List.mem_singleton.2 rfl), rfl⟩

/-- **Placing on the paper engine.** -/
theorem Twin.paperPlace (h : Database.Alike u r s.toDatabase s'.toDatabase)
    (hs : s.toDatabase.Tenanted) (hs' : s'.toDatabase.Tenanted) (settings : Settings) (now : Time)
    (instrumentId : Uuid) (values : OrderValues) (quote : Option NormalizedQuote) :
    OrderEnd u r s s' (paperPlace settings now s u instrumentId values quote)
      (GnkAlgo.paperPlace settings now s' u instrumentId values quote) := by
  unfold GnkAlgo.paperPlace
  by_cases hmode : settings.tradingMode ≠ .paper
  · rw [if_pos hmode, if_pos hmode]
    exact .refused (.refl h) _
  rw [if_neg hmode, if_neg hmode, h.orderOfClient?, h.paperChecks]
  cases hfind : orderOfClient? s'.toDatabase u values.clientOrderId with
  | some existing => exact Twin.replay h hfind instrumentId values
  | none =>
    cases GnkAlgo.paperChecks settings now s'.toDatabase u instrumentId values quote with
    | error e => exact .refused (.refl h) _
    | ok =>
      generalize ho : paperOrder s'.nextUuid u instrumentId values now = o
      have huser : o.userId = u := ho ▸ rfl
      have hname : paperOrder s.nextUuid u instrumentId values now = o.rename r := by
        rw [h.nextUuid, ← ho]
        rfl
      have hplaced : Twin u r s s' (s.toDatabase.insertOrder (o.rename r))
          (s'.toDatabase.insertOrder o) := (Twin.refl h).insertOrder huser (ho ▸ rfl)
      have hrow : (o.id, u) ∈ (s'.toDatabase.insertOrder o).owners :=
        huser ▸ owner_insertOrder s'.toDatabase o
      dsimp only [Option.map_none]
      rw [hname]
      unfold Session.flush
      by_cases hvalid : (s'.toDatabase.insertOrder o).Valid
      · rw [if_pos hvalid, if_pos ((hplaced.valid_iff hs hs').2 hvalid)]
        dsimp only
        have hflushed : SessionTwin u r s s'
            ⟨s.toDatabase.insertOrder (o.rename r), s.toDatabase.insertOrder (o.rename r)⟩
            ⟨s'.toDatabase.insertOrder o, s'.toDatabase.insertOrder o⟩ := ⟨hplaced.alike, hplaced⟩
        have hsettled := hflushed.settleNew huser hrow settings now quote
        obtain ⟨e, hx, hy⟩ | ⟨⟨session, o'⟩, ⟨session', o''⟩, hx, hy, hsession, hname, hknown⟩ :=
          hsettled.end_cases
        · rw [hx, hy]
          exact .refused (.refl h) _
        · rw [hx, hy]
          obtain rfl : o' = o''.rename r := hname
          exact hsession.commitOrder h hs hs' hknown
      · rw [if_neg hvalid, if_neg (mt (hplaced.valid_iff hs hs').1 hvalid)]
        exact .refused (.refl h) _

/-- The loop of `process_quote`. -/
theorem SessionTwin.fillCrossed (settings : Settings) (now : Time) (quote : NormalizedQuote)
    {orders : List TradingOrder} (h : SessionTwin u r s s' a b)
    (hrows : ∀ o ∈ orders, o.userId = u ∧ (o.id, u) ∈ b.work.owners) :
    Agree (fun x y => SessionTwin u r s s' x.1 y.1 ∧ x.2 = y.2)
      (fillCrossed settings now quote a (orders.map (·.rename r)))
      (GnkAlgo.fillCrossed settings now quote b orders) := by
  induction orders generalizing a b with
  | nil => exact .ok ⟨h, rfl⟩
  | cons o orders ih =>
    obtain ⟨ho, hrow⟩ := hrows o (List.mem_cons_self ..)
    have hrest := fun o ho => hrows o (List.mem_cons_of_mem _ ho)
    rw [List.map_cons, GnkAlgo.fillCrossed, GnkAlgo.fillCrossed]
    by_cases hcross : isCrossing o quote = true
    · rw [if_pos hcross, if_pos (show isCrossing (o.rename r) quote = true from hcross)]
      have hfill := h.paperFill ho hrow settings now (o.quantity - o.filledQuantity) quote
      have hremaining : (o.rename r).quantity - (o.rename r).filledQuantity =
          o.quantity - o.filledQuantity := rfl
      rw [hremaining]
      obtain ⟨e, hx, hy⟩ | ⟨⟨session, o'⟩, ⟨session', o''⟩, hx, hy, hsession, -, howners, -⟩ :=
        hfill.end_cases
      · rw [hx, hy]
        exact .error e
      · rw [hx, hy]
        have hloop := ih hsession fun o ho => ⟨(hrest o ho).1, howners ▸ (hrest o ho).2⟩
        dsimp only
        obtain ⟨e, hx, hy⟩ | ⟨x, y, hx, hy, hxy, hcount⟩ := hloop.end_cases
        · rw [hx, hy]
          exact .error e
        · rw [hx, hy]
          exact .ok ⟨hxy, congrArg (· + 1) hcount⟩
    · rw [if_neg hcross, if_neg (show ¬ isCrossing (o.rename r) quote = true from hcross)]
      exact ih h hrest

/-- **A quote.** -/
theorem Twin.processQuote (h : Database.Alike u r s.toDatabase s'.toDatabase)
    (hs : s.toDatabase.Tenanted) (hs' : s'.toDatabase.Tenanted) (settings : Settings) (now : Time)
    (quote : NormalizedQuote) :
    SameEnd u r s s' id (processQuote settings now s u quote)
      (GnkAlgo.processQuote settings now s' u quote) := by
  have hrows : ∀ o ∈ restingOrders s'.toDatabase u quote.instrumentId,
      o.userId = u ∧ (o.id, u) ∈ s'.begin.work.owners := by
    intro o ho
    obtain ⟨ho, hp⟩ := List.mem_filter.1 ho
    have hu : o.userId = u := (of_decide_eq_true hp).1
    exact ⟨hu, owner_of_mem ho hu⟩
  have hloop := (SessionTwin.begin h).fillCrossed settings now quote hrows
  unfold GnkAlgo.processQuote
  rw [h.restingOrders]
  obtain ⟨e, hx, hy⟩ | ⟨⟨session, filled⟩, ⟨session', filled'⟩, hx, hy, hsession, hcount⟩ :=
    hloop.end_cases
  · rw [hx, hy]
    exact ⟨.refl h, rfl⟩
  · rw [hx, hy]
    obtain rfl : filled = filled' := hcount
    dsimp only
    by_cases hfilled : 0 < filled
    · rw [if_pos hfilled, if_pos hfilled]
      have hend := hsession.commitOr h hs hs' (f := id) (.ok filled)
      exact ⟨hend.twin, hend.result.trans (by cases (session'.commitOr s' (.ok filled)).2 <;> rfl)⟩
    · rw [if_neg hfilled, if_neg hfilled]
      exact ⟨.refl h, rfl⟩

end Paper

/-! ## The order manager -/

section Live

variable {d t : Database} {o base new : TradingOrder}

def Phase.rename (r : Renaming) : Phase → Phase
  | .done result => .done (result.map (·.rename r))
  | .awaiting o => .awaiting (o.rename r)

/-- A call gets as far on either side; it ends with an order of the user, or waits
on one. -/
structure PhaseEnd (u : Uuid) (r : Renaming) (s s' : Store) (x y : Store × Phase) : Prop
    extends SameEnd u r s s' (Phase.rename r) x y where
  known : ∀ o, y.2 = .done (.ok o) → (o.id, u) ∈ y.1.toDatabase.owners
  waits : ∀ o, y.2 = .awaiting o → o.userId = u ∧ (o.id, u) ∈ y.1.toDatabase.owners

theorem PhaseEnd.refused {t t' : Store} (h : Twin u r s s' t.toDatabase t'.toDatabase)
    (e : Raised) : PhaseEnd u r s s' (t, .done (.error e)) (t', .done (.error e)) :=
  ⟨⟨h, rfl⟩, (fun _ ho => nomatch ho), fun _ ho => nomatch ho⟩

theorem OrderEnd.done {t t' : Store} {x y : Except Raised TradingOrder}
    (h : OrderEnd u r s s' (t, x) (t', y)) :
    PhaseEnd u r s s' (t, .done x) (t', .done y) :=
  ⟨⟨h.twin, congrArg Phase.done h.result⟩, fun o ho => h.known o (Phase.done.inj ho),
    fun _ ho => nomatch ho⟩

theorem PhaseEnd.awaiting {t t' : Store} (h : Twin u r s s' t.toDatabase t'.toDatabase)
    (hu : o.userId = u) (hrow : (o.id, u) ∈ t'.toDatabase.owners) :
    PhaseEnd u r s s' (t, .awaiting (o.rename r)) (t', .awaiting o) :=
  ⟨⟨h, rfl⟩, (fun _ ho => nomatch ho), fun _ ho => Phase.awaiting.inj ho ▸ ⟨hu, hrow⟩⟩

def Outcome.rename (r : Renaming) (outcome : Outcome) : Outcome :=
  (outcome.1.map (·.rename r), outcome.2.map (·.rename r))

theorem Twin.writeOrder (h : Twin u r s s' d t) (hrow : (base.id, u) ∈ t.owners) :
    Twin u r s s' (d.writeOrder (base.rename r) (new.rename r)) (t.writeOrder base new) := by
  have hfind : d.order? (base.rename r).id = (t.order? base.id).map (·.rename r) := h.order? hrow
  unfold Database.writeOrder
  rw [hfind]
  cases hcase : t.order? base.id with
  | none => exact h
  | some row =>
    obtain ⟨hmem, hid⟩ := Database.order?_mem hcase
    have hu : row.userId = u := h.right.owned hrow row hmem hid
    exact h.setOrder (o := base.writeBack new row) hu (hid ▸ hrow)

theorem owners_writeOrder (s : Store) (base new : TradingOrder) :
    (s.toDatabase.writeOrder base new).owners = s.toDatabase.owners := by
  unfold Database.writeOrder
  cases hfind : s.order? base.id with
  | none => rfl
  | some row =>
    obtain ⟨hrow, -⟩ := Database.order?_mem hfind
    exact Rows.map_replaceBy fun y hy hid => by
      rw [s.valid.eq_of_id hy hrow hid]
      rfl

theorem Twin.finish (h : Database.Alike u r s.toDatabase s'.toDatabase)
    (hrow : (base.id, u) ∈ s'.toDatabase.owners) {outcome : Outcome}
    (hid : ∀ o, outcome.2 = .ok o → o.id = base.id) :
    OrderEnd u r s s' (s.finish (base.rename r) (outcome.rename r)) (s'.finish base outcome) := by
  obtain ⟨written, result⟩ := outcome
  cases written with
  | none => exact ⟨⟨.refl h, rfl⟩, fun o ho => hid o ho ▸ hrow⟩
  | some new =>
    refine ⟨⟨(Twin.refl h).writeOrder hrow, rfl⟩, fun o ho => hid o ho ▸ ?_⟩
    exact (owners_writeOrder s' base new).symm ▸ hrow

theorem placeFinish_rename (r : Renaming) (now : Time) (o : TradingOrder) (result : AdapterResult) :
    placeFinish now (o.rename r) result = (placeFinish now o result).rename r := by
  cases result <;> rfl

theorem cancelFinish_rename (r : Renaming) (now : Time) (prior : OrderStatus) (o : TradingOrder)
    (result : AdapterResult) :
    cancelFinish now prior (o.rename r) result = (cancelFinish now prior o result).rename r := by
  cases result <;> rfl

theorem modifyFinish_rename (r : Renaming) (o : TradingOrder) (quantity : ℤ) (limitPrice : ℚ)
    (result : AdapterResult) : modifyFinish (o.rename r) quantity limitPrice result =
      (modifyFinish o quantity limitPrice result).rename r := by
  cases result <;> rfl

/-- The connection of the user, and the record that its token has expired. -/
theorem Twin.liveConnection (h : Database.Alike u r s.toDatabase s'.toDatabase)
    (hs : s.toDatabase.Tenanted) (hs' : s'.toDatabase.Tenanted) (now : Time) :
    SameEnd u r s s' id (liveConnection now s u) (GnkAlgo.liveConnection now s' u) := by
  unfold GnkAlgo.liveConnection
  rw [h.connection?]
  cases hfind : s'.connections.find? fun c => c.userId = u ∧ c.broker = .dhan ∧
      c.status = .connected with
  | none => exact ⟨.refl h, rfl⟩
  | some c =>
    have hfound := hfind
    rw [← h.connection?] at hfound
    have hu : c.userId = u := by
      have hp := List.find?_some hfind
      rw [decide_eq_true_eq] at hp
      exact hp.1
    have hown : ∀ y ∈ s.connections, y.id = c.id → y.userId = u := fun y hy hid =>
      List.inj_on_of_nodup_map hs.connectionIds hy (List.mem_of_find?_eq_some hfound) hid ▸ hu
    have hown' : ∀ y ∈ s'.connections, y.id = c.id → y.userId = u := fun y hy hid =>
      List.inj_on_of_nodup_map hs'.connectionIds hy (List.mem_of_find?_eq_some hfind) hid ▸ hu
    dsimp only
    by_cases hexpired : ∃ expiresAt ∈ c.tokenExpiresAt, expiresAt ≤ now
    · rw [if_pos hexpired, if_pos hexpired]
      exact ⟨⟨.setConnection hu hown, .setConnection hu hown', h.setConnection hu hown hown'⟩, rfl⟩
    · rw [if_neg hexpired, if_neg hexpired]
      split <;> exact ⟨.refl h, rfl⟩

/-- Where it is found nothing has been written. -/
theorem liveConnection_ok {now : Time} {t : Store} {found : BrokerConnection × Credentials × String}
    (h : liveConnection now s u = (t, .ok found)) : t = s := by
  rcases liveConnection_cases now s u with ⟨t', e, h', -⟩ | ⟨found', h'⟩
  · rw [h] at h'
    cases (Prod.mk.inj h').2
  · rw [h] at h'
    exact (Prod.mk.inj h').1

/-- **A placement, up to the request.** -/
theorem Twin.placeBegin (h : Database.Alike u r s.toDatabase s'.toDatabase)
    (hs : s.toDatabase.Tenanted) (hs' : s'.toDatabase.Tenanted) (settings : Settings) (now : Time)
    (instrumentId : Uuid) (values : OrderValues) (quote : Option NormalizedQuote) :
    PhaseEnd u r s s' (placeBegin settings now s u instrumentId values quote)
      (GnkAlgo.placeBegin settings now s' u instrumentId values quote) := by
  unfold GnkAlgo.placeBegin
  cases settings.tradingMode with
  | disabled => exact .refused (.refl h) _
  | paper =>
    exact (Twin.paperPlace h hs hs' settings now instrumentId values quote).done
  | live =>
    dsimp only
    cases liveGate settings with
    | error e => exact .refused (.refl h) _
    | ok =>
      dsimp only
      rw [h.orderOfClient?, h.liveChecks]
      cases hfind : orderOfClient? s'.toDatabase u values.clientOrderId with
      | some existing => exact (Twin.replay h hfind instrumentId values).done
      | none =>
        dsimp only [Option.map_none]
        cases GnkAlgo.liveChecks settings now s'.toDatabase u instrumentId values quote with
        | error e => exact .refused (.refl h) _
        | ok =>
          dsimp only
          have hconnection := Twin.liveConnection h hs hs' now
          cases hleft : GnkAlgo.liveConnection now s u with
          | mk t₁ found₁ =>
          cases hright : GnkAlgo.liveConnection now s' u with
          | mk t₂ found₂ =>
          rw [hleft, hright] at hconnection
          obtain rfl : found₁ = found₂ := hconnection.result
          cases found₁ with
          | error e => exact .refused hconnection.twin _
          | ok found =>
            obtain rfl := liveConnection_ok hleft
            obtain rfl := liveConnection_ok hright
            obtain ⟨connection, credentials, clientId⟩ := found
            dsimp only
            generalize ho : liveOrder t₂.nextUuid u instrumentId connection.id values now = o
            have hname : liveOrder t₁.nextUuid u instrumentId connection.id values now =
                o.rename r := by
              rw [h.nextUuid, ← ho]
              rfl
            have hplaced : Twin u r t₁ t₂ (t₁.toDatabase.insertOrder (o.rename r))
                (t₂.toDatabase.insertOrder o) :=
              (Twin.refl h).insertOrder (ho ▸ rfl) (ho ▸ rfl)
            rw [hname]
            unfold Session.commit
            by_cases hvalid : (t₂.toDatabase.insertOrder o).Valid
            · rw [dif_pos hvalid, dif_pos ((hplaced.valid_iff hs hs').2 hvalid)]
              exact .awaiting hplaced (ho ▸ rfl) (ho ▸ owner_insertOrder t₂.toDatabase _)
            · rw [dif_neg hvalid, dif_neg (mt (hplaced.valid_iff hs hs').1 hvalid)]
              exact .refused (.refl h) _

/-- **A cancellation, up to the request.** -/
theorem Twin.cancelBegin (h : Database.Alike u r s.toDatabase s'.toDatabase)
    (hs : s.toDatabase.Tenanted) (hs' : s'.toDatabase.Tenanted) (hu : o.userId = u)
    (hrow : (o.id, u) ∈ s'.toDatabase.owners) (hlive : o.mode = .live) (settings : Settings)
    (now : Time) : PhaseEnd u r s s' (cancelBegin settings now s (o.rename r))
      (GnkAlgo.cancelBegin settings now s' o) := by
  have huser : (o.rename r).userId = u := hu
  unfold GnkAlgo.cancelBegin
  by_cases hopen : o.status ∉ openOrderStatuses
  · rw [if_pos hopen, if_pos (show (o.rename r).status ∉ openOrderStatuses from hopen)]
    exact .refused (.refl h) _
  have hpaper : ¬ o.mode = .paper := by
    rw [hlive]
    decide
  rw [if_neg hopen, if_neg (show ¬ (o.rename r).status ∉ openOrderStatuses from hopen),
    if_neg hpaper, if_neg (show ¬ (o.rename r).mode = .paper from hpaper), huser, hu]
  cases liveGate settings with
  | error e => exact .refused (.refl h) _
  | ok =>
    dsimp only
    have hconnection := Twin.liveConnection h hs hs' now
    cases hleft : GnkAlgo.liveConnection now s u with
    | mk t₁ found₁ =>
    cases hright : GnkAlgo.liveConnection now s' u with
    | mk t₂ found₂ =>
    rw [hleft, hright] at hconnection
    obtain rfl : found₁ = found₂ := hconnection.result
    cases found₁ with
    | error e => exact .refused hconnection.twin _
    | ok found =>
      obtain rfl := liveConnection_ok hleft
      obtain rfl := liveConnection_ok hright
      have hwritten : Twin u r t₁ t₂ (t₁.toDatabase.writeOrder (o.rename r)
          ({ o with status := .cancelPending, version := o.version + 1 }.rename r)) _ :=
        (Twin.refl h).writeOrder hrow
      have hkept : (o.id, u) ∈ (t₂.writeOrder o
          { o with status := .cancelPending, version := o.version + 1 }).toDatabase.owners :=
        (owners_writeOrder t₂ o _).symm ▸ hrow
      refine ⟨⟨hwritten, rfl⟩, (fun _ ho => nomatch ho), fun _ ho => ?_⟩
      exact Phase.awaiting.inj ho ▸ ⟨rfl, hkept⟩

/-- **A modification, up to the request.** -/
theorem Twin.modifyBegin (h : Database.Alike u r s.toDatabase s'.toDatabase)
    (hs : s.toDatabase.Tenanted) (hs' : s'.toDatabase.Tenanted) (hu : o.userId = u)
    (hrow : (o.id, u) ∈ s'.toDatabase.owners) (hlive : o.mode = .live) (settings : Settings)
    (now : Time) (quantity : ℤ) (limitPrice : ℚ)
    (quote : Option NormalizedQuote) : PhaseEnd u r s s'
      (modifyBegin settings now s (o.rename r) quantity limitPrice quote)
      (GnkAlgo.modifyBegin settings now s' o quantity limitPrice quote) := by
  have huser : (o.rename r).userId = u := hu
  unfold GnkAlgo.modifyBegin
  have hpaper : ¬ o.mode = .paper := by
    rw [hlive]
    decide
  rw [if_neg hpaper, if_neg (show ¬ (o.rename r).mode = .paper from hpaper), huser, hu]
  cases liveGate settings with
  | error e => exact .refused (.refl h) _
  | ok =>
    dsimp only
    by_cases hopen : o.status ∉ openOrderStatuses ∨ o.orderType ≠ .limit
    · rw [if_pos hopen, if_pos (show (o.rename r).status ∉ openOrderStatuses ∨
        (o.rename r).orderType ≠ .limit from hopen)]
      exact .refused (.refl h) _
    rw [if_neg hopen, if_neg (show ¬ ((o.rename r).status ∉ openOrderStatuses ∨
      (o.rename r).orderType ≠ .limit) from hopen)]
    by_cases hfilled : quantity < max 1 o.filledQuantity
    · rw [if_pos hfilled, if_pos (show quantity < max 1 (o.rename r).filledQuantity from hfilled)]
      exact .refused (.refl h) _
    rw [if_neg hfilled, if_neg (show ¬ quantity < max 1 (o.rename r).filledQuantity from hfilled)]
    have hconnection := Twin.liveConnection h hs hs' now
    cases hleft : GnkAlgo.liveConnection now s u with
    | mk t₁ found₁ =>
    cases hright : GnkAlgo.liveConnection now s' u with
    | mk t₂ found₂ =>
    rw [hleft, hright] at hconnection
    obtain rfl : found₁ = found₂ := hconnection.result
    cases found₁ with
    | error e => exact .refused hconnection.twin _
    | ok found =>
      obtain rfl := liveConnection_ok hleft
      obtain rfl := liveConnection_ok hright
      exact .awaiting (.refl h) hu hrow

end Live

/-! ## A pass of the reconciler -/

/-- A dictionary under other names. -/
theorem lookup_map_snd {β γ : Type*} (f : β → γ) (l : List (String × β)) (k : String) :
    (l.map fun e => (e.1, f e.2)).lookup k = (l.lookup k).map f := by
  induction l with
  | nil => rfl
  | cons e l ih =>
    obtain ⟨k', b⟩ := e
    rw [List.map_cons, List.lookup_cons, List.lookup_cons, ih]
    cases k == k' <;> rfl

/-- Two passes over the account of the user. -/
structure PassTwin (u : Uuid) (r : Renaming) (s s' : Store) (p q : Pass) : Prop where
  session : SessionTwin u r s s' p.session q.session
  byBroker : p.byBroker = q.byBroker.map fun e => (e.1, r e.2)
  byCorrelation : p.byCorrelation = q.byCorrelation.map fun e => (e.1, r e.2)
  namedBroker : ∀ e ∈ q.byBroker, (e.2, u) ∈ q.session.work.owners
  namedCorrelation : ∀ e ∈ q.byCorrelation, (e.2, u) ∈ q.session.work.owners

namespace PassTwin

variable {p q : Pass} {o : TradingOrder}

theorem lookup (h : PassTwin u r s s' p q) {l : List (String × Uuid)}
    (hnamed : ∀ e ∈ l, (e.2, u) ∈ q.session.work.owners) (k : String) :
    ((l.map fun e => (e.1, r e.2)).lookup k).bind p.order? =
      ((l.lookup k).bind q.order?).map (·.rename r) := by
  rw [lookup_map_snd]
  cases hlookup : l.lookup k with
  | none => rfl
  | some id => exact h.session.work.order? (hnamed (k, id) (Pass.mem_of_lookup hlookup))

theorem ofBroker? (h : PassTwin u r s s' p q) (brokerId : String) :
    p.ofBroker? brokerId = (q.ofBroker? brokerId).map (·.rename r) := by
  rw [Pass.ofBroker?, h.byBroker, h.lookup h.namedBroker, Pass.ofBroker?]

theorem ofItem? (h : PassTwin u r s s' p q) (item : BrokerOrderItem) :
    p.ofItem? item = (q.ofItem? item).map (·.rename r) := by
  rw [Pass.ofItem?, h.ofBroker?, h.byCorrelation, h.lookup h.namedCorrelation, Pass.ofItem?,
    Option.map_or]

theorem found (h : PassTwin u r s s' p q) {l : List (String × Uuid)}
    (hnamed : ∀ e ∈ l, (e.2, u) ∈ q.session.work.owners) {k : String}
    (ho : (l.lookup k).bind q.order? = some o) :
    o.userId = u ∧ (o.id, u) ∈ q.session.work.owners := by
  obtain ⟨id, hlookup, hfind⟩ := Option.bind_eq_some_iff.1 ho
  have hrow := hnamed (k, id) (Pass.mem_of_lookup hlookup)
  obtain ⟨hmem, rfl⟩ := Database.order?_mem hfind
  exact ⟨h.session.work.right.owned hrow o hmem rfl, hrow⟩

theorem found_ofItem? (h : PassTwin u r s s' p q) {item : BrokerOrderItem}
    (ho : q.ofItem? item = some o) : o.userId = u ∧ (o.id, u) ∈ q.session.work.owners := by
  rcases Option.or_eq_some_iff.1 ho with ho | ⟨-, ho⟩
  · exact h.found h.namedBroker ho
  · exact h.found h.namedCorrelation ho

/-- An order object is rewritten. -/
theorem setOrder (h : PassTwin u r s s' p q) (ho : o.userId = u)
    (hrow : (o.id, u) ∈ q.session.work.owners) :
    PassTwin u r s s' (p.setOrder (o.rename r)) (q.setOrder o) := by
  have howners := h.session.owners_setOrder ho hrow
  exact ⟨h.session.setOrder ho hrow, h.byBroker, h.byCorrelation,
    fun e he => howners ▸ h.namedBroker e he, fun e he => howners ▸ h.namedCorrelation e he⟩

theorem attach (h : PassTwin u r s s' p q) (item : BrokerOrderItem) :
    PassTwin u r s s' (p.attach item) (q.attach item) := by
  unfold Pass.attach
  rw [h.ofItem?]
  cases ho : q.ofItem? item with
  | none => exact h
  | some o =>
    obtain ⟨hu, hrow⟩ := h.found_ofItem? ho
    dsimp only [Option.map_some]
    by_cases hnew : item.orderId ≠ "" ∧ orMissing o.brokerOrderId = none
    · rw [if_pos hnew, if_pos (show item.orderId ≠ "" ∧
        orMissing (o.rename r).brokerOrderId = none from hnew)]
      have hset := h.setOrder (o := { o with brokerOrderId := some item.orderId }) hu hrow
      refine ⟨hset.session, congrArg _ h.byBroker, h.byCorrelation, fun e he => ?_,
        hset.namedCorrelation⟩
      rcases List.mem_cons.1 he with rfl | he
      · exact (h.session.owners_setOrder (o := { o with brokerOrderId := some item.orderId }) hu
          hrow).symm ▸ hrow
      · exact hset.namedBroker e he
    · rw [if_neg hnew, if_neg (show ¬ (item.orderId ≠ "" ∧
        orMissing (o.rename r).brokerOrderId = none) from hnew)]
      exact h

theorem importTrade (h : PassTwin u r s s' p q) (now : Time) (item : TradeItem) :
    PassTwin u r s s' (p.importTrade now item) (q.importTrade now item) := by
  unfold Pass.importTrade
  rw [h.ofBroker?]
  cases ho : q.ofBroker? item.orderId with
  | none => exact h
  | some o =>
    obtain ⟨hu, hrow⟩ := h.found h.namedBroker ho
    dsimp only [Option.map_some]
    by_cases htrade : item.exchangeTradeId = ""
    · rw [if_pos htrade, if_pos htrade]
      exact h
    rw [if_neg htrade, if_neg htrade]
    have hbooked := h.session.applyExecution hu hrow now item.tradedQuantity item.tradedPrice
      .dhanReconciliation (some (.exchange item.exchangeTradeId))
      (some (tradeTime now item.exchangeTime))
    change Agree _ (applyExecution now p.session (o.rename r) item.tradedQuantity item.tradedPrice
      .dhanReconciliation (some (.exchange item.exchangeTradeId)) _) _ at hbooked
    obtain ⟨e, hx, hy⟩ | ⟨⟨session, o'⟩, ⟨session', o''⟩, hx, hy, hsession, -, howners, -⟩ :=
      hbooked.end_cases
    · rw [hx, hy]
      exact h.setOrder (o := { o with
        status := .unknown
        rejectionReason := some ("RECONCILIATION_" ++ e.code) }) hu hrow
    · rw [hx, hy]
      exact ⟨hsession, h.byBroker, h.byCorrelation, fun e he => howners ▸ h.namedBroker e he,
        fun e he => howners ▸ h.namedCorrelation e he⟩

theorem statusOf_rename (r : Renaming) (now : Time) (o : TradingOrder) (item : BrokerOrderItem) :
    Pass.statusOf now (o.rename r) item = (Pass.statusOf now o item).rename r := by
  unfold Pass.statusOf
  dsimp only
  by_cases hincomplete : mapDhanStatus item.orderStatus = .filled ∧ o.filledQuantity ≠ o.quantity
  · rw [if_pos hincomplete, if_pos (show mapDhanStatus item.orderStatus = .filled ∧
      (o.rename r).filledQuantity ≠ (o.rename r).quantity from hincomplete)]
    rfl
  · rw [if_neg hincomplete, if_neg (show ¬ (mapDhanStatus item.orderStatus = .filled ∧
      (o.rename r).filledQuantity ≠ (o.rename r).quantity) from hincomplete)]
    rfl

theorem takeStatus (h : PassTwin u r s s' p q) (now : Time) (item : BrokerOrderItem) :
    PassTwin u r s s' (p.takeStatus now item) (q.takeStatus now item) := by
  unfold Pass.takeStatus
  rw [h.ofItem?]
  cases ho : q.ofItem? item with
  | none => exact h
  | some o =>
    obtain ⟨hu, hrow⟩ := h.found_ofItem? ho
    have hsame : o.SameBook (Pass.statusOf now o item) := statusOf_sameBook
    dsimp only [Option.map_some]
    rw [statusOf_rename]
    exact h.setOrder ((congrArg PositionKey.userId hsame.positionKey).trans hu) (hsame.id ▸ hrow)

/-- A loop over one of the books. -/
theorem foldl {β : Type} {step : Pass → β → Pass}
    (hstep : ∀ {p q : Pass} (item : β), PassTwin u r s s' p q →
      PassTwin u r s s' (step p item) (step q item)) (items : List β) :
    ∀ {p q : Pass}, PassTwin u r s s' p q →
      PassTwin u r s s' (items.foldl step p) (items.foldl step q) := by
  induction items with
  | nil => exact fun h => h
  | cons item items ih => exact fun h => ih (hstep item h)

end PassTwin

theorem passTwin_startPass (h : Database.Alike u r s.toDatabase s'.toDatabase) :
    PassTwin u r s s' (startPass s.begin u) (startPass s'.begin u) := by
  have hrows : ∀ o ∈ localOrders s'.toDatabase u, (o.id, u) ∈ s'.toDatabase.owners := by
    intro o ho
    obtain ⟨ho, hp⟩ := List.mem_filter.1 ho
    exact owner_of_mem ho (of_decide_eq_true hp).1
  have hlocal : localOrders s.begin.stored u = (localOrders s'.begin.stored u).map (·.rename r) :=
    h.localOrders
  refine ⟨.begin h, ?_, ?_, fun e he => ?_, fun e he => ?_⟩
  · rw [startPass, startPass, hlocal, List.map_reverse, List.filterMap_map, List.map_filterMap]
    refine congrArg List.reverse (List.filterMap_congr fun o _ => ?_)
    rw [Option.map_map]
    rfl
  · rw [startPass, startPass, hlocal, List.map_reverse, List.map_map, List.map_map]
    rfl
  · obtain ⟨o, ho, heq⟩ := List.mem_filterMap.1 (List.mem_reverse.1 he)
    obtain ⟨k, -, rfl⟩ := Option.map_eq_some_iff.1 heq
    exact hrows o ho
  · obtain ⟨o, ho, rfl⟩ := List.mem_map.1 (List.mem_reverse.1 he)
    exact hrows o ho

/-- **A pass.** -/
theorem Twin.reconcile (h : Database.Alike u r s.toDatabase s'.toDatabase)
    (hs : s.toDatabase.Tenanted) (hs' : s'.toDatabase.Tenanted) (now : Time)
    (brokerOrders : List BrokerOrderItem) (trades : List TradeItem) :
    SameEnd u r s s' id (reconcile now s u brokerOrders trades)
      (GnkAlgo.reconcile now s' u brokerOrders trades) := by
  have hattached := PassTwin.foldl (fun item h => h.attach item) brokerOrders (passTwin_startPass h)
  have himported := PassTwin.foldl (fun item h => h.importTrade now item) trades hattached
  have htaken := PassTwin.foldl (fun item h => h.takeStatus now item) brokerOrders himported
  have hend := htaken.session.commitOr h hs hs' (f := id) (.ok ())
  have hid : ∀ x : Except Raised Unit, x.map id = x := fun x => by cases x <;> rfl
  exact ⟨hend.twin, hend.result.trans (hid _)⟩

end GnkAlgo
