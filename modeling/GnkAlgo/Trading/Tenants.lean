import GnkAlgo.Trading.CallRuns
import GnkAlgo.Trading.TwinSteps

/-!
# Tenants do not interfere

`tenantStep` lets the users take steps in any order: a step begins or ends one of
the user's operations.  What a user sees in such a run is what it sees in the run
of its own steps alone, up to the ids that have been generated
(`tenants_apart`).

* `userStep` — a step, from what is committed and what the user waits with;
* `userStep_twin` — a step does the same to two contents that look alike;
* `Tenants.View` — the relation between the two runs.
-/

namespace GnkAlgo

open TwoRuns

/-! ## Steps of a user -/

/-- What the sessions of a user hold: orders that have been read, and calls that
wait for the broker. -/
structure Pending where
  loaded : List TradingOrder := []
  waiting : List Call := []

/-- What an operation answers: an order or a refusal, a 404, the number of fills,
the end of a pass, or the control. -/
inductive TenantResult
  | order (result : Except Raised TradingOrder)
  | notFound
  | filled (result : Except Raised ℕ)
  | reconciled (result : Except Raised Unit)
  | control (isHalted : Bool)

/-- A step of a user.  The path of a request names an order, or nothing. -/
inductive TenantOp
  | place (now : Time) (instrumentId : Uuid) (values : OrderValues) (quote : Option NormalizedQuote)
  | load (orderId : Option Uuid)
  | cancel (now : Time) (index : ℕ)
  | modify (now : Time) (index : ℕ) (quantity : ℤ) (limitPrice : ℚ)
      (quote : Option NormalizedQuote)
  | answer (now : Time) (index : ℕ) (subscribed : Bool) (outcome : HttpOutcome)
  | dropLoaded (index : ℕ)
  | dropWaiting (index : ℕ)
  | killSwitch (halted : Bool)
  | quote (now : Time) (quote : NormalizedQuote)
  | reconcile (now : Time) (brokerOrders : List BrokerOrderItem) (trades : List TradeItem)

/-- `PaperTradingEngine.cancel` on the order a request holds. -/
def requestCancel (now : Time) (s : Store) (o : TradingOrder) :
    Store × Except Raised TradingOrder :=
  match paperCancelOrder now o with
  | .error e => (s, .error (.trading e))
  | .ok o' => (s.writeOrder o o', .ok o')

/-- `PaperTradingEngine.modify` on the order a request holds. -/
def requestModify (settings : Settings) (now : Time) (s : Store) (o : TradingOrder) (quantity : ℤ)
    (limitPrice : ℚ) (quote : Option NormalizedQuote) : Store × Except Raised TradingOrder :=
  match paperModifySession settings now ⟨s.toDatabase, s.toDatabase.setOrder o⟩ o quantity
    limitPrice quote with
  | .error e => (s, .error (.trading e))
  | .ok (session, o') => Session.commitOr ⟨s.toDatabase,
      { session.work with orders := (s.toDatabase.writeOrder o o').orders }⟩ s (.ok o')

theorem requestCancel_fst (now : Time) (s : Store) (o : TradingOrder) :
    (requestCancel now s o).1 = heldCancel now s o := by
  unfold requestCancel heldCancel
  cases paperCancelOrder now o <;> rfl

theorem requestModify_fst (settings : Settings) (now : Time) (s : Store) (o : TradingOrder)
    (quantity : ℤ) (limitPrice : ℚ) (quote : Option NormalizedQuote) :
    (requestModify settings now s o quantity limitPrice quote).1 =
      heldModify settings now s o quantity limitPrice quote := by
  unfold requestModify heldModify
  rcases paperModifySession settings now ⟨s.toDatabase, s.toDatabase.setOrder o⟩ o quantity
    limitPrice quote with e | ⟨session, o'⟩ <;> rfl

def Pending.dropLoaded (p : Pending) (index : ℕ) : Pending :=
  { p with loaded := p.loaded.eraseIdx index }

def Pending.dropWaiting (p : Pending) (index : ℕ) : Pending :=
  { p with waiting := p.waiting.eraseIdx index }

/-- A call that has got as far as a phase: it ends, or waits as `call` says. -/
def Pending.after (p : Pending) (call : TradingOrder → Call) :
    Store × Phase → Store × Pending × Option TenantResult
  | (s, .done result) => (s, p, some (.order result))
  | (s, .awaiting o) => (s, { p with waiting := p.waiting ++ [call o] }, none)

/-- A call that has ended. -/
def Pending.ended (p : Pending) (end_ : Store × Except Raised TradingOrder) :
    Store × Pending × Option TenantResult := (end_.1, p, some (.order end_.2))

/-- One step of the user `userId`. -/
def userStep (settings : Settings) (userId : Uuid) (s : Store) (p : Pending) :
    TenantOp → Store × Pending × Option TenantResult
  | .place now instrumentId values quote =>
    p.after Call.placing (placeBegin settings now s userId instrumentId values quote)
  | .load orderId =>
    match orderId.bind (ownedOrder? s.toDatabase userId) with
    | none => (s, p, some .notFound)
    | some o => (s, { p with loaded := p.loaded ++ [o] }, none)
  | .cancel now index =>
    match p.loaded[index]? with
    | none => (s, p, none)
    | some o =>
      if o.mode = .paper then (p.dropLoaded index).ended (requestCancel now s o)
      else (p.dropLoaded index).after (Call.canceling o.status) (cancelBegin settings now s o)
  | .modify now index quantity limitPrice quote =>
    match p.loaded[index]? with
    | none => (s, p, none)
    | some o =>
      if o.mode = .paper then
        (p.dropLoaded index).ended (requestModify settings now s o quantity limitPrice quote)
      else (p.dropLoaded index).after (Call.modifying · quantity limitPrice)
        (modifyBegin settings now s o quantity limitPrice quote)
  | .answer now index subscribed outcome =>
    match (p.waiting[index]?).bind (Call.answered now subscribed outcome) with
    | none => (s, p, none)
    | some (o, outcome) => (p.dropWaiting index).ended (s.finish o outcome)
  | .dropLoaded index => (s, p.dropLoaded index, none)
  | .dropWaiting index => (s, p.dropWaiting index, none)
  | .killSwitch halted => (killSwitch s (.user userId) halted, p, some (.control halted))
  | .quote now quote =>
    let (s, result) := processQuote settings now s userId quote
    (s, p, some (.filled result))
  | .reconcile now brokerOrders trades =>
    let (s, result) := reconcile now s userId brokerOrders trades
    (s, p, some (.reconciled result))

/-- What is committed, and what each user waits with. -/
structure Tenants where
  store : Store
  pending : Uuid → Pending

/-- Before any operation. -/
def Tenants.start (s : Store) : Tenants := ⟨s, fun _ => {}⟩

/-- A step of one of the users, and its answer if it has one. -/
def tenantStep (settings : Settings) (w : Tenants) (e : Uuid × TenantOp) :
    Tenants × Option TenantResult :=
  let (s, p, answer) := userStep settings e.1 w.store (w.pending e.1) e.2
  (⟨s, Function.update w.pending e.1 p⟩, answer)

/-! ## Names -/

def Call.rename (r : Renaming) : Call → Call
  | .loaded o live => .loaded (o.rename r) live
  | .placing o => .placing (o.rename r)
  | .canceling prior o => .canceling prior (o.rename r)
  | .modifying o quantity limitPrice => .modifying (o.rename r) quantity limitPrice

def Pending.rename (r : Renaming) (p : Pending) : Pending :=
  ⟨p.loaded.map (·.rename r), p.waiting.map (·.rename r)⟩

def TenantResult.rename (r : Renaming) : TenantResult → TenantResult
  | .order result => .order (result.map (·.rename r))
  | result => result

/-- The id that `r` takes to `n`. -/
def Renaming.inverse (r : Renaming) (n : Uuid) : Option Uuid :=
  (List.range (n + 1)).find? (r · = n)

/-- The step under the names of the other run. -/
def TenantOp.named (names : Uuid → Option Uuid) : TenantOp → TenantOp
  | .load orderId => .load (orderId.bind names)
  | op => op

theorem Renaming.inverse_eq_some (r : Renaming) {m n : Uuid} : r.inverse n = some m ↔ r m = n := by
  constructor
  · intro h
    have hp := List.find?_some h
    rwa [decide_eq_true_eq] at hp
  · rintro rfl
    have hle : m ≤ r m := r.strictMono.le_apply
    cases h : r.inverse (r m) with
    | none =>
      have hnone := List.find?_eq_none.1 h m (List.mem_range.2 (Nat.lt_succ_of_le hle))
      exact absurd (decide_eq_true rfl) hnone
    | some m' =>
      have hp := List.find?_some h
      rw [decide_eq_true_eq] at hp
      rw [r.inj.1 hp]

/-! ## Requests that hold an order -/

section Requests

variable {u : Uuid} {r : Renaming} {s s' : Store} {o : TradingOrder} {d e : Database}

theorem SessionTwin.paperModifySession {a b : Session} (h : SessionTwin u r s s' a b)
    (ho : o.userId = u) (hrow : (o.id, u) ∈ b.work.owners) (settings : Settings) (now : Time)
    (quantity : ℤ) (limitPrice : ℚ) (quote : Option NormalizedQuote) :
    Agree (fun x y => SessionTwin u r s s' x.1 y.1 ∧ x.2 = y.2.rename r ∧
        (y.2.id, u) ∈ y.1.work.owners)
      (paperModifySession settings now a (o.rename r) quantity limitPrice quote)
      (paperModifySession settings now b o quantity limitPrice quote) := by
  unfold GnkAlgo.paperModifySession
  by_cases hguard : o.mode ≠ .paper ∨ o.status ∉ openOrderStatuses ∨ o.orderType ≠ .limit
  · rw [if_pos hguard, if_pos (show (o.rename r).mode ≠ .paper ∨
      (o.rename r).status ∉ openOrderStatuses ∨ (o.rename r).orderType ≠ .limit from hguard)]
    exact .error _
  rw [if_neg hguard, if_neg (show ¬ ((o.rename r).mode ≠ .paper ∨
    (o.rename r).status ∉ openOrderStatuses ∨ (o.rename r).orderType ≠ .limit) from hguard)]
  by_cases hfilled : quantity < max 1 o.filledQuantity
  · rw [if_pos hfilled, if_pos (show quantity < max 1 (o.rename r).filledQuantity from hfilled)]
    exact .error _
  rw [if_neg hfilled, if_neg (show ¬ quantity < max 1 (o.rename r).filledQuantity from hfilled)]
  have hset := h.setOrder (o := o.modified quantity limitPrice) ho hrow
  have howners := h.owners_setOrder (o := o.modified quantity limitPrice) ho hrow
  have hname : (o.rename r).modified quantity limitPrice = (o.modified quantity limitPrice).rename r :=
    rfl
  dsimp only
  rw [hname]
  cases quote with
  | none => exact .ok ⟨hset, rfl, howners ▸ hrow⟩
  | some q =>
    dsimp only
    by_cases hcross : isCrossing (o.modified quantity limitPrice) q = true
    · rw [if_pos hcross, if_pos (show isCrossing ((o.modified quantity limitPrice).rename r) q = true
        from hcross)]
      have hfill := hset.paperFill (o := o.modified quantity limitPrice) ho (howners ▸ hrow) settings
        now (quantity - o.filledQuantity) q
      refine hfill.mono ?_
      rintro x y ⟨hsession, hname, hkept, hid⟩
      exact ⟨hsession, hname, by rw [hkept, hid]; exact howners ▸ hrow⟩
    · rw [if_neg hcross, if_neg (show ¬ isCrossing ((o.modified quantity limitPrice).rename r) q = true
        from hcross)]
      exact .ok ⟨hset, rfl, howners ▸ hrow⟩

/-- The orders of one content next to the other rows of another. -/
theorem Database.ChangedBy.withOrders (h : Database.ChangedBy u s.toDatabase d)
    (h' : Database.ChangedBy u s.toDatabase e) (hd : d.owners = s.toDatabase.owners)
    (he : e.owners = s.toDatabase.owners) :
    Database.ChangedBy u s.toDatabase { d with orders := e.orders } :=
  { h with
    orders := h'.orders
    owners := ⟨[], he.trans (List.append_nil _).symm, List.nodup_nil,
      fun _ hp => absurd hp List.not_mem_nil⟩
    executed := fun x hx => (h.executed x hx).imp_right fun hx => by
      rw [hd, ← he] at hx
      exact hx }

/-- A modification keeps the ids of the orders and their owners. -/
theorem owners_modified {settings : Settings} {now : Time} {quantity : ℤ} {limitPrice : ℚ}
    {quote : Option NormalizedQuote} {session : Session} {o' : TradingOrder}
    (hown : ∀ y ∈ s.orders, y.id = o.id → y.userId = o.userId)
    (h : paperModifySession settings now ⟨s.toDatabase, s.toDatabase.setOrder o⟩ o quantity
      limitPrice quote = .ok (session, o')) :
    session.work.owners = s.toDatabase.owners ∧ o'.id = o.id := by
  obtain ⟨horders, hrewrites⟩ := paperModifySession_orders s.valid le_rfl h
  have hsymm : o' = o.writeBack o' o := hrewrites.symm
  have hid : o'.id = o.id := (congrArg TradingOrder.id hsymm).trans rfl
  have huser : o'.userId = o.userId := (congrArg TradingOrder.userId hsymm).trans rfl
  refine ⟨?_, hid⟩
  have hsame : session.work.orders = Rows.replaceBy TradingOrder.id o' s.orders := by
    rw [horders]
    exact Rows.replaceBy_replaceBy hid.symm
  rw [Database.owners, hsame]
  exact Rows.map_replaceBy fun y hy hy' => by rw [hy', huser, hown y hy (hy'.trans hid)]

theorem Twin.requestCancel (h : Database.Alike u r s.toDatabase s'.toDatabase)
    (hrow : (o.id, u) ∈ s'.toDatabase.owners) (now : Time) :
    OrderEnd u r s s' (requestCancel now s (o.rename r)) (GnkAlgo.requestCancel now s' o) := by
  unfold GnkAlgo.requestCancel paperCancelOrder
  by_cases hguard : o.mode ≠ .paper ∨ o.status ∉ openOrderStatuses
  · rw [if_pos hguard, if_pos (show (o.rename r).mode ≠ .paper ∨
      (o.rename r).status ∉ openOrderStatuses from hguard)]
    exact .refused (.refl h) _
  · rw [if_neg hguard, if_neg (show ¬ ((o.rename r).mode ≠ .paper ∨
      (o.rename r).status ∉ openOrderStatuses) from hguard)]
    have hwritten : Twin u r s s' (s.toDatabase.writeOrder (o.rename r)
      ((o.canceledAt now).rename r)) _ := (Twin.refl h).writeOrder hrow
    refine ⟨⟨hwritten, rfl⟩, fun _ ho => ?_⟩
    exact Except.ok.inj ho ▸ (owners_writeOrder s' o (o.canceledAt now)).symm ▸ hrow

theorem Twin.requestModify (h : Database.Alike u r s.toDatabase s'.toDatabase)
    (hs : s.toDatabase.Tenanted) (hs' : s'.toDatabase.Tenanted) (ho : o.userId = u)
    (hrow : (o.id, u) ∈ s'.toDatabase.owners) (settings : Settings) (now : Time) (quantity : ℤ)
    (limitPrice : ℚ) (quote : Option NormalizedQuote) :
    OrderEnd u r s s' (requestModify settings now s (o.rename r) quantity limitPrice quote)
      (GnkAlgo.requestModify settings now s' o quantity limitPrice quote) := by
  have hheld : SessionTwin u r s s' ⟨s.toDatabase, s.toDatabase.setOrder (o.rename r)⟩
      ⟨s'.toDatabase, s'.toDatabase.setOrder o⟩ := ⟨h, (Twin.refl h).setOrder ho hrow⟩
  have howners : (s'.toDatabase.setOrder o).owners = s'.toDatabase.owners :=
    (SessionTwin.begin h).owners_setOrder ho hrow
  have hmodified := hheld.paperModifySession ho (howners ▸ hrow) settings now quantity limitPrice
    quote
  unfold GnkAlgo.requestModify
  obtain ⟨err, hx, hy⟩ | ⟨⟨session, o₁⟩, ⟨session', o₂⟩, hx, hy, hsession, hname, hknown⟩ :=
    hmodified.end_cases
  · rw [hx, hy]
    exact .refused (.refl h) _
  · rw [hx, hy]
    obtain rfl : o₁ = o₂.rename r := hname
    have hwritten : Twin u r s s' (s.toDatabase.writeOrder (o.rename r) (o₂.rename r))
      (s'.toDatabase.writeOrder o o₂) := (Twin.refl h).writeOrder hrow
    have hleft := owners_modified (o := o.rename r) (fun y hy hid =>
      ((Twin.refl h).left.owned (h.owner hrow) y hy hid).trans ho.symm) hx
    have hright := owners_modified (o := o) (fun y hy hid =>
      ((Twin.refl h).right.owned hrow y hy hid).trans ho.symm) hy
    have hboth : SessionTwin u r s s'
        ⟨s.toDatabase, { session.work with
          orders := (s.toDatabase.writeOrder (o.rename r) (o₂.rename r)).orders }⟩
        ⟨s'.toDatabase, { session'.work with orders := (s'.toDatabase.writeOrder o o₂).orders }⟩ :=
      ⟨h, hsession.work.left.withOrders hwritten.left hleft.1 (owners_writeOrder ..),
        hsession.work.right.withOrders hwritten.right hright.1 (owners_writeOrder ..),
        { hsession.work.alike with orders := hwritten.alike.orders }⟩
    have hkept : (o₂.id, u) ∈ (s'.toDatabase.writeOrder o o₂).owners := by
      rw [hright.1] at hknown
      rw [owners_writeOrder]
      exact hknown
    exact hboth.commitOrder h hs hs' hkept

end Requests

/-! ## One step on two contents -/

section Steps

variable {u : Uuid} {r : Renaming} {s s' : Store} {d d' : Database} {p : Pending}

/-- The orders that the sessions of `u` hold are rows of `u`. -/
structure Pending.Held (u : Uuid) (d : Database) (p : Pending) : Prop where
  loaded : ∀ o ∈ p.loaded, o.userId = u ∧ (o.id, u) ∈ d.owners
  waiting : ∀ call ∈ p.waiting, call.order.userId = u ∧ (call.order.id, u) ∈ d.owners

namespace Pending

theorem Held.mono (h : p.Held u d) (hd : d.owners ⊆ d'.owners) : p.Held u d' :=
  ⟨fun o ho => (h.loaded o ho).imp_right (@hd _), fun c hc => (h.waiting c hc).imp_right (@hd _)⟩

theorem Held.dropLoaded (h : p.Held u d) (index : ℕ) : (p.dropLoaded index).Held u d :=
  ⟨fun o ho => h.loaded o (List.mem_of_mem_eraseIdx ho), h.waiting⟩

theorem Held.dropWaiting (h : p.Held u d) (index : ℕ) : (p.dropWaiting index).Held u d :=
  ⟨h.loaded, fun c hc => h.waiting c (List.mem_of_mem_eraseIdx hc)⟩

theorem Held.load (h : p.Held u d) {o : TradingOrder} (ho : o.userId = u ∧ (o.id, u) ∈ d.owners) :
    Held u d { p with loaded := p.loaded ++ [o] } :=
  ⟨List.forall_mem_append.2 ⟨h.loaded, List.forall_mem_singleton.2 ho⟩, h.waiting⟩

theorem Held.wait (h : p.Held u d) {call : Call}
    (hcall : call.order.userId = u ∧ (call.order.id, u) ∈ d.owners) :
    Held u d { p with waiting := p.waiting ++ [call] } :=
  ⟨h.loaded, List.forall_mem_append.2 ⟨h.waiting, List.forall_mem_singleton.2 hcall⟩⟩

theorem rename_dropLoaded (r : Renaming) (p : Pending) (index : ℕ) :
    (p.rename r).dropLoaded index = (p.dropLoaded index).rename r := by
  simp [Pending.rename, Pending.dropLoaded, List.eraseIdx_map]

theorem rename_dropWaiting (r : Renaming) (p : Pending) (index : ℕ) :
    (p.rename r).dropWaiting index = (p.dropWaiting index).rename r := by
  simp [Pending.rename, Pending.dropWaiting, List.eraseIdx_map]

end Pending

/-- A step has done the same on either side. -/
structure StepTwin (u : Uuid) (r : Renaming) (s s' : Store)
    (x y : Store × Pending × Option TenantResult) : Prop where
  twin : Twin u r s s' x.1.toDatabase y.1.toDatabase
  pending : x.2.1 = y.2.1.rename r
  held : y.2.1.Held u y.1.toDatabase
  answer : x.2.2 = y.2.2.map (·.rename r)
  known : ∀ o, y.2.2 = some (.order (.ok o)) → (o.id, u) ∈ y.1.toDatabase.owners

/-- A step that answers without an order. -/
theorem Twin.step {t t' : Store} (h : Twin u r s s' t.toDatabase t'.toDatabase)
    (hp : p.Held u s'.toDatabase) {answer : Option TenantResult}
    (hanswer : ∀ result, answer ≠ some (.order result)) :
    StepTwin u r s s' (t, p.rename r, answer) (t', p, answer) where
  twin := h
  pending := rfl
  held := hp.mono h.right.owners_subset
  answer := by
    rcases answer with - | result
    · rfl
    · cases result with
      | order result => exact absurd rfl (hanswer result)
      | notFound | filled | reconciled | control => rfl
  known o ho := absurd ho (hanswer _)

theorem SameEnd.step {α : Type} {x y : Store × α} (h : SameEnd u r s s' id x y)
    (hp : p.Held u s'.toDatabase) {answer : α → TenantResult}
    (hanswer : ∀ a result, answer a ≠ .order result) :
    StepTwin u r s s' (x.1, p.rename r, some (answer x.2)) (y.1, p, some (answer y.2)) := by
  have hsame : x.2 = y.2 := h.result
  rw [hsame]
  exact h.twin.step hp fun result heq => hanswer y.2 result (Option.some.inj heq)

theorem OrderEnd.ended {x y : Store × Except Raised TradingOrder} (h : OrderEnd u r s s' x y)
    (hp : p.Held u s'.toDatabase) : StepTwin u r s s' ((p.rename r).ended x) (p.ended y) where
  twin := h.twin
  pending := rfl
  held := hp.mono h.twin.right.owners_subset
  answer := congrArg (fun result => some (TenantResult.order result)) h.result
  known o ho := h.known o (TenantResult.order.inj (Option.some.inj ho))

theorem PhaseEnd.after {x y : Store × Phase} (h : PhaseEnd u r s s' x y)
    (hp : p.Held u s'.toDatabase) {call : TradingOrder → Call}
    (hcall : ∀ o, (call o).order = o ∧ (call o).rename r = call (o.rename r)) :
    StepTwin u r s s' ((p.rename r).after call x) (p.after call y) := by
  obtain ⟨t, phase⟩ := x
  obtain ⟨t', phase'⟩ := y
  obtain rfl : phase = phase'.rename r := h.result
  have hkept := hp.mono h.twin.right.owners_subset
  cases phase' with
  | done result =>
    exact ⟨h.twin, rfl, hkept, rfl, fun o ho =>
      h.known o (congrArg Phase.done (TenantResult.order.inj (Option.some.inj ho)))⟩
  | awaiting o =>
    have hwaits := h.waits o rfl
    refine ⟨h.twin, ?_, hkept.wait ((hcall o).1.symm ▸ hwaits), rfl, fun _ ho => nomatch ho⟩
    simp [Pending.after, Phase.rename, Pending.rename, (hcall o).2]

theorem Call.answered_rename (r : Renaming) (now : Time) (subscribed : Bool) (outcome : HttpOutcome)
    (call : Call) : (call.rename r).answered now subscribed outcome =
      (call.answered now subscribed outcome).map fun x => (x.1.rename r, x.2.rename r) := by
  cases call with
  | loaded o live => rfl
  | placing o => exact congrArg (fun x => some (o.rename r, x)) (placeFinish_rename ..)
  | canceling prior o => exact congrArg (fun x => some (o.rename r, x)) (cancelFinish_rename ..)
  | modifying o quantity limitPrice =>
    exact congrArg (fun x => some (o.rename r, x)) (modifyFinish_rename ..)

/-- A call returns the order it is about. -/
theorem Call.answered_order {now : Time} {subscribed : Bool} {outcome : HttpOutcome} {call : Call}
    {base : TradingOrder} {result : Outcome}
    (h : call.answered now subscribed outcome = some (base, result)) :
    base = call.order ∧ ∀ o, result.2 = .ok o → o.id = base.id := by
  cases call with
  | loaded o live => cases h
  | placing o =>
    cases h
    refine ⟨rfl, fun o' ho => ?_⟩
    cases hanswer : dhanPlace subscribed outcome <;> rw [hanswer] at ho <;> cases ho
    rfl
  | canceling prior held =>
    cases h
    refine ⟨rfl, fun o' ho => ?_⟩
    cases hanswer : dhanCancel base outcome <;> rw [hanswer] at ho <;> cases ho
    rfl
  | modifying held quantity limitPrice =>
    cases h
    refine ⟨rfl, fun o' ho => ?_⟩
    cases hanswer : dhanModify base outcome <;> rw [hanswer] at ho <;> cases ho
    rfl

theorem userStep_cancel (settings : Settings)
    (h : Database.Alike u r s.toDatabase s'.toDatabase) (hs : s.toDatabase.Tenanted)
    (hs' : s'.toDatabase.Tenanted) (hp : p.Held u s'.toDatabase) (now : Time) (index : ℕ) :
    StepTwin u r s s' (userStep settings u s (p.rename r) (.cancel now index))
      (userStep settings u s' p (.cancel now index)) := by
  have hfind : (p.rename r).loaded[index]? = (p.loaded[index]?).map (·.rename r) :=
    List.getElem?_map
  rw [userStep, userStep, hfind]
  cases hcase : p.loaded[index]? with
  | none => exact (Twin.refl h).step hp fun _ ho => nomatch ho
  | some o =>
    obtain ⟨hu, hrow⟩ := hp.loaded o (List.mem_of_getElem? hcase)
    dsimp only [Option.map_some]
    rw [Pending.rename_dropLoaded]
    by_cases hmode : o.mode = .paper
    · rw [if_pos hmode, if_pos (show (o.rename r).mode = .paper from hmode)]
      exact (Twin.requestCancel h hrow now).ended (hp.dropLoaded index)
    · rw [if_neg hmode, if_neg (show ¬ (o.rename r).mode = .paper from hmode)]
      have hlive : o.mode = .live := by cases hcase : o.mode <;> simp_all
      exact (Twin.cancelBegin h hs hs' hu hrow hlive settings now).after (hp.dropLoaded index)
        fun _ => ⟨rfl, rfl⟩

theorem userStep_modify (settings : Settings)
    (h : Database.Alike u r s.toDatabase s'.toDatabase) (hs : s.toDatabase.Tenanted)
    (hs' : s'.toDatabase.Tenanted) (hp : p.Held u s'.toDatabase) (now : Time) (index : ℕ)
    (quantity : ℤ) (limitPrice : ℚ) (quote : Option NormalizedQuote) :
    StepTwin u r s s' (userStep settings u s (p.rename r) (.modify now index quantity limitPrice quote))
      (userStep settings u s' p (.modify now index quantity limitPrice quote)) := by
  have hfind : (p.rename r).loaded[index]? = (p.loaded[index]?).map (·.rename r) :=
    List.getElem?_map
  rw [userStep, userStep, hfind]
  cases hcase : p.loaded[index]? with
  | none => exact (Twin.refl h).step hp fun _ ho => nomatch ho
  | some o =>
    obtain ⟨hu, hrow⟩ := hp.loaded o (List.mem_of_getElem? hcase)
    dsimp only [Option.map_some]
    rw [Pending.rename_dropLoaded]
    by_cases hmode : o.mode = .paper
    · rw [if_pos hmode, if_pos (show (o.rename r).mode = .paper from hmode)]
      exact (Twin.requestModify h hs hs' hu hrow settings now quantity limitPrice quote).ended
        (hp.dropLoaded index)
    · rw [if_neg hmode, if_neg (show ¬ (o.rename r).mode = .paper from hmode)]
      have hlive : o.mode = .live := by cases hcase : o.mode <;> simp_all
      exact (Twin.modifyBegin h hs hs' hu hrow hlive settings now quantity limitPrice quote).after
        (hp.dropLoaded index) fun _ => ⟨rfl, rfl⟩

theorem userStep_answer (settings : Settings)
    (h : Database.Alike u r s.toDatabase s'.toDatabase) (hp : p.Held u s'.toDatabase) (now : Time)
    (index : ℕ) (subscribed : Bool) (outcome : HttpOutcome) :
    StepTwin u r s s' (userStep settings u s (p.rename r) (.answer now index subscribed outcome))
      (userStep settings u s' p (.answer now index subscribed outcome)) := by
  have hfind : ((p.rename r).waiting[index]?).bind (Call.answered now subscribed outcome) =
      ((p.waiting[index]?).bind (Call.answered now subscribed outcome)).map
        fun x => (x.1.rename r, x.2.rename r) := by
    rw [Pending.rename, List.getElem?_map]
    cases p.waiting[index]? with
    | none => rfl
    | some call => exact call.answered_rename r now subscribed outcome
  rw [userStep, userStep, hfind]
  cases hcase : (p.waiting[index]?).bind (Call.answered now subscribed outcome) with
  | none => exact (Twin.refl h).step hp fun _ ho => nomatch ho
  | some x =>
    obtain ⟨base, result⟩ := x
    obtain ⟨call, hcall, hanswered⟩ := Option.bind_eq_some_iff.1 hcase
    obtain ⟨rfl, hid⟩ := Call.answered_order hanswered
    dsimp only [Option.map_some]
    rw [Pending.rename_dropWaiting]
    exact (Twin.finish h (hp.waiting call (List.mem_of_getElem? hcall)).2 hid).ended
      (hp.dropWaiting index)

/-- **A step of the user** on two contents that look alike, where `names` says
under which id the second has what the first has under another. -/
theorem userStep_twin (settings : Settings) (h : Database.Alike u r s.toDatabase s'.toDatabase)
    (hs : s.toDatabase.Tenanted) (hs' : s'.toDatabase.Tenanted) (hp : p.Held u s'.toDatabase)
    (names : Uuid → Option Uuid) (hnames : ∀ id, ownedOrder? s.toDatabase u id =
      ((names id).bind (ownedOrder? s'.toDatabase u)).map (·.rename r)) (op : TenantOp) :
    StepTwin u r s s' (userStep settings u s (p.rename r) op)
      (userStep settings u s' p (op.named names)) := by
  cases op with
  | place now instrumentId values quote =>
    exact (Twin.placeBegin h hs hs' settings now instrumentId values quote).after hp
      fun o => ⟨rfl, rfl⟩
  | load orderId =>
    have hfind : orderId.bind (ownedOrder? s.toDatabase u) =
        ((orderId.bind names).bind (ownedOrder? s'.toDatabase u)).map (·.rename r) := by
      cases orderId with
      | none => rfl
      | some id => exact hnames id
    rw [TenantOp.named, userStep, userStep, hfind]
    cases hcase : (orderId.bind names).bind (ownedOrder? s'.toDatabase u) with
    | none => exact (Twin.refl h).step hp fun _ ho => nomatch ho
    | some o =>
      obtain ⟨id, -, hid⟩ := Option.bind_eq_some_iff.1 hcase
      have hp' := List.find?_some hid
      rw [decide_eq_true_eq] at hp'
      have hrow := owner_of_mem (List.mem_of_find?_eq_some hid) hp'.2
      refine ⟨.refl h, ?_, hp.load ⟨hp'.2, hrow⟩, rfl, fun _ ho => nomatch ho⟩
      simp [Pending.rename]
  | cancel now index => exact userStep_cancel settings h hs hs' hp now index
  | modify now index quantity limitPrice quote =>
    exact userStep_modify settings h hs hs' hp now index quantity limitPrice quote
  | answer now index subscribed outcome =>
    exact userStep_answer settings h hp now index subscribed outcome
  | dropLoaded index =>
    have hstep : StepTwin u r s s' (s, (p.dropLoaded index).rename r, none)
        (s', p.dropLoaded index, none) :=
      (Twin.refl h).step (hp.dropLoaded index) fun _ ho => nomatch ho
    rw [← Pending.rename_dropLoaded] at hstep
    exact hstep
  | dropWaiting index =>
    have hstep : StepTwin u r s s' (s, (p.dropWaiting index).rename r, none)
        (s', p.dropWaiting index, none) :=
      (Twin.refl h).step (hp.dropWaiting index) fun _ ho => nomatch ho
    rw [← Pending.rename_dropWaiting] at hstep
    exact hstep
  | killSwitch halted =>
    have hswitched : Twin u r s s' (killSwitch s (.user u) halted).toDatabase
        (killSwitch s' (.user u) halted).toDatabase :=
      ⟨.switched halted, .switched halted, h.switched halted⟩
    exact hswitched.step hp fun _ ho => nomatch ho
  | quote now quote =>
    exact (Twin.processQuote h hs hs' settings now quote).step hp (fun _ _ heq => nomatch heq)
  | reconcile now brokerOrders trades =>
    exact (Twin.reconcile h hs hs' now brokerOrders trades).step hp (fun _ _ heq => nomatch heq)

end Steps

/-! ## Two runs -/

section Runs

variable {u : Uuid} {r : Renaming} {s s' : Store} {d t : Database}

/-! ### Renamings that grow -/

/-- A later renaming knows more ids. -/
instance : Preorder Renaming where
  le r r' := r.bound ≤ r'.bound ∧ ∀ n < r.bound, r' n = r n
  le_refl r := ⟨le_refl _, fun _ _ => rfl⟩
  le_trans r r' r'' h h' :=
    ⟨h.1.trans h'.1, fun n hn => (h'.2 n (hn.trans_le h.1)).trans (h.2 n hn)⟩

/-- Every id stands for itself. -/
def Renaming.same (n : Uuid) : Renaming where
  toFun := id
  bound := n
  strictMono := strictMono_id
  shift _ := rfl

/-- The ids up to `n` have been drawn. -/
def Renaming.upTo (r : Renaming) (n : Uuid) (h : r.bound ≤ n) : Renaming where
  toFun := r
  bound := n
  strictMono := r.strictMono
  shift := r.add h

/-- The next draw stands for `n`, since others have drawn. -/
def Renaming.skip (r : Renaming) (n : Uuid) (h : r r.bound ≤ n) : Renaming where
  toFun k := if k < r.bound then r k else n + (k - r.bound)
  bound := r.bound
  strictMono k l hkl := by
    dsimp only
    by_cases hl : l < r.bound
    · rw [if_pos hl, if_pos (hkl.trans hl)]
      exact r.strictMono hkl
    · rw [if_neg hl]
      by_cases hk : k < r.bound
      · rw [if_pos hk]
        exact ((r.strictMono hk).trans_le h).trans_le (Nat.le_add_right _ _)
      · rw [if_neg hk]
        change k < l at hkl
        have hle : r.bound ≤ k := not_lt.1 hk
        exact Nat.add_lt_add_left (Nat.sub_lt_sub_right hle hkl) n
  shift k := by
    rw [if_neg (Nat.not_lt.2 (Nat.le_add_right _ _)), if_neg (lt_irrefl _)]
    simp

theorem Renaming.le_upTo (r : Renaming) {n : Uuid} (h : r.bound ≤ n) : r ≤ r.upTo n h :=
  ⟨h, fun _ _ => rfl⟩

theorem Renaming.le_skip (r : Renaming) {n : Uuid} (h : r r.bound ≤ n) : r ≤ r.skip n h :=
  ⟨le_refl _, fun _ hk => if_pos hk⟩

theorem Renaming.skip_bound (r : Renaming) {n : Uuid} (h : r r.bound ≤ n) :
    r.skip n h r.bound = n := (if_neg (lt_irrefl _)).trans (by simp)

theorem TradingOrder.rename_congr {r r' : Renaming} {o : TradingOrder} (h : r' o.id = r o.id) :
    o.rename r' = o.rename r :=
  congrArg (fun id => ({ o with id := id } : TradingOrder)) h

theorem BrokerExecutionId.rename_congr {r r' : Renaming} {i : BrokerExecutionId}
    (h : ∀ n, i = .paper n → r' n = r n) : i.rename r' = i.rename r := by
  cases i with
  | paper n => exact congrArg BrokerExecutionId.paper (h n rfl)
  | exchange tradeId => rfl

theorem TradeExecution.rename_congr {r r' : Renaming} {e : TradeExecution}
    (horder : r' e.orderId = r e.orderId)
    (hpaper : ∀ n, e.brokerExecutionId = some (.paper n) → r' n = r n) :
    e.rename r' = e.rename r := by
  have hid : e.brokerExecutionId.map (·.rename r') = e.brokerExecutionId.map (·.rename r) := by
    cases hcase : e.brokerExecutionId with
    | none => rfl
    | some i =>
      exact congrArg some (BrokerExecutionId.rename_congr fun n hn => hpaper n (by rw [hcase, hn]))
  rw [TradeExecution.rename, TradeExecution.rename, horder, hid]

/-! ### The rows of a user under a later renaming -/

theorem Store.owner_lt (s : Store) {p : Uuid × Uuid} (hp : p ∈ s.toDatabase.owners) :
    p.1 < s.nextUuid := by
  obtain ⟨o, ho, rfl⟩ := List.mem_map.1 hp
  exact s.valid.orderUuids o ho

theorem Store.execution_lt (s : Store) {e : TradeExecution} (he : e ∈ s.executions) :
    e.orderId < s.nextUuid ∧ ∀ n, e.brokerExecutionId = some (.paper n) → n < s.nextUuid := by
  obtain ⟨o, ho, heq⟩ := List.mem_map.1 (s.valid.executionOrders e he)
  refine ⟨heq ▸ s.valid.orderUuids o ho, fun n hn => s.valid.paperUuids e he n ?_⟩
  rw [hn]
  exact List.mem_singleton.2 rfl

/-- The other user's steps have left the rows of `u`, and drawn ids. -/
theorem Database.Alike.skip {a : Uuid} (h : Database.Alike u r d s'.toDatabase)
    (hbound : r.bound = s'.nextUuid) (hd : Database.ChangedBy a d t) (ha : u ≠ a)
    (hnext : r r.bound ≤ t.nextUuid) :
    Database.Alike u (r.skip t.nextUuid hnext) t s'.toDatabase where
  orders := by
    rw [hd.orders u ha, h.orders]
    refine List.map_congr_left fun o ho => (TradingOrder.rename_congr ?_).symm
    refine (r.le_skip hnext).2 _ ?_
    rw [hbound]
    exact s'.valid.orderUuids o (List.mem_filter.1 ho).1
  executions := by
    rw [hd.executions u ha, h.executions]
    refine List.map_congr_left fun e he => (TradeExecution.rename_congr ?_ fun n hn => ?_).symm
    · refine (r.le_skip hnext).2 _ ?_
      rw [hbound]
      exact (s'.execution_lt (List.mem_filter.1 he).1).1
    · refine (r.le_skip hnext).2 _ ?_
      rw [hbound]
      exact (s'.execution_lt (List.mem_filter.1 he).1).2 n hn
  positions := (hd.positions u ha).trans h.positions
  controls := (hd.controls u ha).trans h.controls
  connections := (hd.connections u ha).trans h.connections
  nextUuid := by
    rw [← hbound]
    exact (r.skip_bound hnext).symm
  bound := le_of_eq hbound

theorem Call.rename_congr {r' : Renaming} {call : Call} (h : r' call.order.id = r call.order.id) :
    call.rename r' = call.rename r := by
  cases call <;> simp only [Call.rename, Call.order] at h ⊢ <;>
    simp only [TradingOrder.rename_congr h]

theorem Pending.rename_congr {r' : Renaming} {p : Pending} (hp : p.Held u s'.toDatabase)
    (h : ∀ n < s'.nextUuid, r' n = r n) : p.rename r' = p.rename r := by
  have hloaded : p.loaded.map (·.rename r') = p.loaded.map (·.rename r) :=
    List.map_congr_left fun o ho =>
      TradingOrder.rename_congr (h _ (s'.owner_lt (hp.loaded o ho).2))
  have hwaiting : p.waiting.map (·.rename r') = p.waiting.map (·.rename r) :=
    List.map_congr_left fun c hc => Call.rename_congr (h _ (s'.owner_lt (hp.waiting c hc).2))
  rw [Pending.rename, Pending.rename, hloaded, hwaiting]

theorem Pending.Held.rename {p : Pending} (hp : p.Held u t) (h : Database.Alike u r d t) :
    (p.rename r).Held u d := by
  refine ⟨fun o ho => ?_, fun c hc => ?_⟩
  · obtain ⟨o, hmem, rfl⟩ := List.mem_map.1 ho
    exact ⟨(hp.loaded o hmem).1, h.owner (hp.loaded o hmem).2⟩
  · obtain ⟨c, hmem, rfl⟩ := List.mem_map.1 hc
    have hrow := hp.waiting c hmem
    cases c <;> exact ⟨hrow.1, h.owner hrow.2⟩

/-! ### A step on one content -/

theorem TradeExecution.rename_same (n : Uuid) (e : TradeExecution) : e.rename (.same n) = e := by
  have hid : e.brokerExecutionId.map (·.rename (.same n)) = e.brokerExecutionId := by
    rcases e.brokerExecutionId with - | - | tradeId <;> rfl
  rw [TradeExecution.rename, hid]
  rfl

theorem Pending.rename_same (n : Uuid) (p : Pending) : p.rename (.same n) = p := by
  have hcalls : p.waiting.map (·.rename (.same n)) = p.waiting :=
    (List.map_congr_left fun c _ => by cases c <;> rfl).trans (List.map_id _)
  rw [Pending.rename, hcalls]
  exact congrArg (fun loaded => (⟨loaded, p.waiting⟩ : Pending)) (List.map_id _)

theorem TenantOp.named_some (op : TenantOp) : op.named some = op := by
  cases op <;> simp [TenantOp.named]

theorem Database.Alike.self (u : Uuid) (s : Store) :
    Database.Alike u (.same s.nextUuid) s.toDatabase s.toDatabase where
  orders := (List.map_id _).symm
  executions :=
    ((List.map_congr_left fun e _ => e.rename_same s.nextUuid).trans (List.map_id _)).symm
  positions := rfl
  controls := rfl
  connections := rfl
  nextUuid := rfl
  bound := le_refl _

/-- A step of `u` writes rows of `u`, and holds orders of `u`. -/
theorem userStep_own (settings : Settings) (hs : s.toDatabase.Tenanted) {p : Pending}
    (hp : p.Held u s.toDatabase) (op : TenantOp) :
    Database.ChangedBy u s.toDatabase (userStep settings u s p op).1.toDatabase ∧
      (userStep settings u s p op).2.1.Held u (userStep settings u s p op).1.toDatabase := by
  have hself : ∀ id, ownedOrder? s.toDatabase u id =
      ((some id).bind (ownedOrder? s.toDatabase u)).map (·.rename (.same s.nextUuid)) := by
    intro id
    rw [Option.bind_some]
    cases ownedOrder? s.toDatabase u id <;> rfl
  have hstep := userStep_twin settings (.self u s) hs hs hp some hself op
  rw [op.named_some] at hstep
  exact ⟨hstep.twin.right, hstep.held⟩

/-! ### The relation -/

/-- What `u` sees in two runs. -/
structure Tenants.View (u : Uuid) (r : Renaming) (w v : Tenants) : Prop where
  alike : Database.Alike u r w.store.toDatabase v.store.toDatabase
  tenanted : w.store.toDatabase.Tenanted
  tenanted' : v.store.toDatabase.Tenanted
  pending : w.pending u = (v.pending u).rename r
  held : ∀ a, (w.pending a).Held a w.store.toDatabase
  held' : (v.pending u).Held u v.store.toDatabase
  bound : r.bound = v.store.nextUuid

variable {w v : Tenants}

/-- A step of another user. -/
theorem Tenants.View.others (h : Tenants.View u r w v) (settings : Settings) {a : Uuid}
    (ha : u ≠ a) (op : TenantOp) :
    ∃ r', r ≤ r' ∧ Tenants.View u r' (tenantStep settings w (a, op)).1 v := by
  obtain ⟨hchanged, hheld⟩ := userStep_own settings h.tenanted (h.held a) op
  have hnext : r r.bound ≤ (userStep settings a w.store (w.pending a) op).1.nextUuid := by
    rw [h.bound, ← h.alike.nextUuid]
    exact hchanged.nextUuid
  have hlater := r.le_skip hnext
  refine ⟨_, hlater, h.alike.skip h.bound hchanged ha hnext, hchanged.tenanted h.tenanted,
    h.tenanted', ?_, fun b => ?_, h.held', h.bound⟩
  · have hsame : (tenantStep settings w (a, op)).1.pending u = w.pending u :=
      Function.update_of_ne ha _ _
    rw [hsame, h.pending]
    exact (Pending.rename_congr h.held' fun n hn => hlater.2 n (h.bound.symm ▸ hn)).symm
  · by_cases hb : b = a
    · subst hb
      have hself : (tenantStep settings w (b, op)).1.pending b =
          (userStep settings b w.store (w.pending b) op).2.1 := Function.update_self ..
      rw [hself]
      exact hheld
    · have hsame : (tenantStep settings w (a, op)).1.pending b = w.pending b :=
        Function.update_of_ne hb _ _
      rw [hsame]
      exact (h.held b).mono hchanged.owners_subset

theorem TradingOrder.rename_injective (r : Renaming) :
    Function.Injective fun o : TradingOrder => o.rename r := by
  intro o o' h
  change o.rename r = o'.rename r at h
  have hid : o.id = o'.id := r.inj.1 (congrArg TradingOrder.id h)
  have hcopy : ∀ o : TradingOrder, o = { o.rename r with id := o.id } := fun _ => rfl
  rw [hcopy o, hcopy o', hid]
  exact congrArg (fun x : TradingOrder => { x with id := o'.id }) h

/-- An order is named by the same id from either side. -/
theorem Tenants.View.names (h : Tenants.View u r w v) {r' : Renaming} (hr : r ≤ r') (id : Uuid) :
    ownedOrder? w.store.toDatabase u id =
      ((r'.inverse id).bind (ownedOrder? v.store.toDatabase u)).map (·.rename r) := by
  have hknown : ∀ n < v.store.nextUuid, r' n = r n := fun n hn => hr.2 n (h.bound.symm ▸ hn)
  by_cases hid : ∃ n < v.store.nextUuid, r n = id
  · obtain ⟨n, hn, rfl⟩ := hid
    rw [r'.inverse_eq_some.2 (hknown n hn), Option.bind_some]
    exact h.alike.ownedOrder? n
  · have hnone : (r'.inverse id).bind (ownedOrder? v.store.toDatabase u) = none := by
      refine Option.bind_eq_none_iff.2 fun n hn => List.find?_eq_none.2 fun o ho hp => ?_
      rw [decide_eq_true_eq] at hp
      have hlt : n < v.store.nextUuid := hp.1 ▸ v.store.valid.orderUuids o ho
      exact hid ⟨n, hlt, (hknown n hlt).symm.trans (r'.inverse_eq_some.1 hn)⟩
    rw [hnone]
    refine List.find?_eq_none.2 fun o ho hp => ?_
    rw [decide_eq_true_eq] at hp
    have hmem : o ∈ w.store.orders.filter (·.userId = u) :=
      List.mem_filter.2 ⟨ho, decide_eq_true hp.2⟩
    rw [h.alike.orders] at hmem
    obtain ⟨o', ho', rfl⟩ := List.mem_map.1 hmem
    exact hid ⟨o'.id, v.store.valid.orderUuids o' (List.mem_filter.1 ho').1, hp.1⟩

/-- The step of the user in the run of its own steps is the same under all later names. -/
theorem Tenants.View.named (h : Tenants.View u r w v) {r' : Renaming} (hr : r ≤ r')
    (settings : Settings) (op : TenantOp) :
    userStep settings u v.store (v.pending u) (op.named r'.inverse) =
      userStep settings u v.store (v.pending u) (op.named r.inverse) := by
  cases op with
  | load orderId =>
    have hfind : (orderId.bind r'.inverse).bind (ownedOrder? v.store.toDatabase u) =
        (orderId.bind r.inverse).bind (ownedOrder? v.store.toDatabase u) := by
      cases orderId with
      | none => rfl
      | some id =>
        exact Option.map_injective (TradingOrder.rename_injective r)
          ((h.names hr id).symm.trans (h.names (le_refl r) id))
    rw [TenantOp.named, TenantOp.named, userStep, userStep, hfind]
  | place | cancel | modify | answer | dropLoaded | dropWaiting | killSwitch | quote | reconcile =>
    rfl

/-- Two answers to a step of the user. -/
def SameAnswer (r : Renaming) (a b : Option TenantResult) : Prop :=
  a = b.map (·.rename r) ∧ ∀ o, b = some (.order (.ok o)) → o.id < r.bound

theorem SameAnswer.mono {r' : Renaming} {a b : Option TenantResult} (hr : r ≤ r')
    (h : SameAnswer r a b) : SameAnswer r' a b := by
  refine ⟨?_, fun o ho => (h.2 o ho).trans_le hr.1⟩
  rw [h.1]
  rcases b with - | result
  · rfl
  rcases result with (e | o) | - | - | - | - <;> try rfl
  have hname := TradingOrder.rename_congr (hr.2 o.id (h.2 o rfl))
  simp only [Option.map_some, TenantResult.rename, Except.map, hname]

/-- A step of the user. -/
theorem Tenants.View.own (h : Tenants.View u r w v) (settings : Settings) (op : TenantOp) :
    ∃ r', r ≤ r' ∧ ∃ v' answer, Tenants.View u r' (tenantStep settings w (u, op)).1 v' ∧
      SameAnswer r' (tenantStep settings w (u, op)).2 answer ∧
      ∀ r'', r' ≤ r'' → tenantStep settings v (u, op.named r''.inverse) = (v', answer) := by
  have hstep := userStep_twin settings h.alike h.tenanted h.tenanted' h.held' r.inverse
    (h.names (le_refl r)) op
  rw [← h.pending] at hstep
  generalize hx : userStep settings u w.store (w.pending u) op = x at hstep
  generalize hy : userStep settings u v.store (v.pending u) (op.named r.inverse) = y at hstep
  have hbound : r.bound ≤ y.1.nextUuid := by
    rw [h.bound]
    exact hstep.twin.right.nextUuid
  have hw : tenantStep settings w (u, op) = (⟨x.1, Function.update w.pending u x.2.1⟩, x.2.2) := by
    rw [tenantStep, hx]
  rw [hw]
  refine ⟨r.upTo y.1.nextUuid hbound, r.le_upTo hbound,
    ⟨y.1, Function.update v.pending u y.2.1⟩, y.2.2, ⟨?_, ?_, ?_, ?_, fun a => ?_, ?_, rfl⟩,
    ⟨hstep.answer, fun o ho => y.1.owner_lt (hstep.known o ho)⟩, fun r'' hr => ?_⟩
  · exact { hstep.twin.alike with bound := le_refl _ }
  · exact hstep.twin.left.tenanted h.tenanted
  · exact hstep.twin.right.tenanted h.tenanted'
  · dsimp only
    rw [Function.update_self, Function.update_self]
    exact hstep.pending
  · dsimp only
    by_cases ha : a = u
    · subst ha
      rw [Function.update_self, hstep.pending]
      exact hstep.held.rename hstep.twin.alike
    · rw [Function.update_of_ne ha]
      exact (h.held a).mono hstep.twin.left.owners_subset
  · dsimp only
    rw [Function.update_self]
    exact hstep.held
  · rw [tenantStep, h.named ((r.le_upTo hbound).trans hr), hy]

/-- The steps of the user, as they name orders in the run of these steps alone. -/
def ownSteps (u : Uuid) (r : Renaming) (events : List (Uuid × TenantOp)) : List (Uuid × TenantOp) :=
  (events.filter (·.1 = u)).map fun e => (e.1, e.2.named r.inverse)

/-- **Tenants do not interfere.**  In a run of the users' operations, begun from
any content without open operations, a user's rows, its control, the calls it
waits with and all its answers are those of the run in which the others' steps are
left out; `r` says which generated id of that run stands for which of the first. -/
theorem tenants_apart (settings : Settings) (u : Uuid) (s : Store) (hs : s.toDatabase.Tenanted)
    (events : List (Uuid × TenantOp)) :
    ∃ r : Renaming, (∀ n < s.nextUuid, r n = n) ∧
      let all := run (tenantStep settings) (Tenants.start s) events
      let alone := run (tenantStep settings) (Tenants.start s) (ownSteps u r events)
      Database.Alike u r all.1.store.toDatabase alone.1.store.toDatabase ∧
      all.1.pending u = (alone.1.pending u).rename r ∧
      answersTo (·.1 = u) all.2 =
        (answersTo (·.1 = u) alone.2).map (Option.map (·.rename r)) := by
  have hempty : ∀ a, Pending.Held a s.toDatabase {} :=
    fun a => ⟨fun _ h => absurd h List.not_mem_nil, fun _ h => absurd h List.not_mem_nil⟩
  have hstart : Tenants.View u (.same s.nextUuid) (.start s) (.start s) :=
    ⟨.self u s, hs, hs, rfl, hempty, hempty u, rfl⟩
  have hruns : ∃ r, Renaming.same s.nextUuid ≤ r ∧
      Tenants.View u r (run (tenantStep settings) (.start s) events).1
        (run (tenantStep settings) (.start s) (ownSteps u r events)).1 ∧
      List.Forall₂ (SameAnswer r)
        (answersTo (·.1 = u) (run (tenantStep settings) (.start s) events).2)
        (answersTo (·.1 = u) (run (tenantStep settings) (.start s) (ownSteps u r events)).2) := by
    refine unwinding (O := SameAnswer) (tenantStep settings) (·.1 = u)
      (fun r e => (e.1, e.2.named r.inverse)) (fun _ _ => rfl) (fun hr h => h.mono hr)
      (fun {r w v e} h he => ?_) (fun {r w v e} h he => ?_) events hstart
    · exact h.others settings (fun hu => of_decide_eq_false he hu.symm) e.2
    · obtain ⟨a, op⟩ := e
      obtain rfl : a = u := of_decide_eq_true he
      exact h.own settings op
  obtain ⟨r, hr, hview, hanswers⟩ := hruns
  refine ⟨r, hr.2, hview.alike, hview.pending, ?_⟩
  rw [← List.forall₂_eq_eq_eq, List.forall₂_map_right_iff]
  exact hanswers.imp fun _ _ h => h.1

/-- Two users place under one client id; the first halts itself before that. -/
def sameClientId : List (Uuid × TenantOp) :=
  [(8, .killSwitch true), (8, .place 0 3 tenAtHundred none), (7, .place 0 3 tenAtHundred none),
    (7, .load (some 0)), (7, .cancel 1 0)]

theorem tenants_apart_sameClientId : ∃ r : Renaming,
    answersTo (·.1 = 7) (run (tenantStep paperSettings) (.start .empty) sameClientId).2 =
      (answersTo (·.1 = 7) (run (tenantStep paperSettings) (.start .empty)
        (ownSteps 7 r sameClientId)).2).map (Option.map (·.rename r)) := by
  have hempty : Store.empty.toDatabase.Tenanted :=
    ⟨fun _ he => absurd he List.not_mem_nil, List.nodup_nil⟩
  obtain ⟨r, -, -, -, hanswers⟩ := tenants_apart paperSettings 7 Store.empty hempty sameClientId
  exact ⟨r, hanswers⟩

end Runs

end GnkAlgo
