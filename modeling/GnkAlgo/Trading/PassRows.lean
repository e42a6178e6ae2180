import GnkAlgo.Lib.Index
import GnkAlgo.Trading.Divergence

/-!
# The dictionaries and the rows of a pass

What the first loop of `_apply` leaves in the two dictionaries, and the rows that a
committed pass leaves, as functions of the rows before it.

* `Pass.Indexed`, `Pass.indexed_attachedPass` — the dictionaries are those of the rows,
  and the loop is done with each of its entries;
* `endRow`, `reconcile_orders` — the rows at the end of the pass;
* `localOrders_reconcile` — the orders that the next pass loads.
-/

namespace GnkAlgo

open Writes

/-! ## The dictionaries of a pass -/

namespace Pass

variable {stored : Database} {userId : Uuid} {p : Pass} {item : BrokerOrderItem}
  {o : TradingOrder} {b : String}

/-- The broker id that the row of an order has. -/
def brokerOf (p : Pass) (o : TradingOrder) : Option String :=
  (p.order? o.id).bind fun row => orMissing row.brokerOrderId

/-- The dictionaries are those of the loaded orders, as their rows are.  Where an
order got its broker id in the pass, it is found under it. -/
structure Indexed (stored : Database) (userId : Uuid) (p : Pass) : Prop where
  sound : p.Sound stored userId
  byBroker : ∀ b, p.byBroker.lookup b =
    (Index.of p.brokerOf TradingOrder.id (localOrders stored userId)).lookup b
  byCorrelation : p.byCorrelation = Index.of (fun o : TradingOrder => some o.clientOrderId)
    TradingOrder.id (localOrders stored userId)
  attached : ∀ o ∈ localOrders stored userId, ∀ b, p.brokerOf o = some b →
    p.byBroker.lookup b = some o.id ∨ orMissing o.brokerOrderId = some b
  others : ∀ o ∈ stored.orders, o ∉ localOrders stored userId → p.order? o.id = some o

theorem Indexed.not_brokerOf (h : p.Indexed stored userId) (hnone : p.byBroker.lookup b = none)
    (ho : o ∈ localOrders stored userId) : p.brokerOf o ≠ some b := by
  rw [h.byBroker] at hnone
  exact Index.lookup_of_eq_none.1 hnone o ho

theorem Indexed.exists_of_byBroker (h : p.Indexed stored userId) {id : Uuid}
    (hb : p.byBroker.lookup b = some id) :
    ∃ o ∈ localOrders stored userId, p.brokerOf o = some b ∧ o.id = id := by
  rw [h.byBroker] at hb
  exact Index.exists_of_lookup hb

/-- Orders of one user are told apart by their client ids. -/
theorem eq_of_clientOrderId (hv : stored.Valid) {o' : TradingOrder}
    (ho : o ∈ localOrders stored userId) (ho' : o' ∈ localOrders stored userId)
    (h : o.clientOrderId = o'.clientOrderId) : o = o' := by
  obtain ⟨hmem, huser, -⟩ := mem_localOrders.1 ho
  obtain ⟨hmem', huser', -⟩ := mem_localOrders.1 ho'
  refine List.inj_on_of_nodup_map hv.clientKeys hmem hmem' ?_
  rw [TradingOrder.clientKey, TradingOrder.clientKey, huser, huser', h]

theorem Indexed.lookup_byCorrelation (h : p.Indexed stored userId) (hv : stored.Valid)
    (ho : o ∈ localOrders stored userId) :
    p.byCorrelation.lookup o.clientOrderId = some o.id := by
  rw [h.byCorrelation]
  refine Index.lookup_of_unique ho rfl fun y hy hclient => ?_
  rw [eq_of_clientOrderId hv hy ho (Option.some_inj.1 hclient)]

theorem Indexed.exists_of_byCorrelation (h : p.Indexed stored userId) {clientOrderId : String}
    {id : Uuid} (hid : p.byCorrelation.lookup clientOrderId = some id) :
    ∃ o ∈ localOrders stored userId, o.clientOrderId = clientOrderId ∧ o.id = id := by
  rw [h.byCorrelation] at hid
  obtain ⟨o, ho, hclient, hid⟩ := Index.exists_of_lookup hid
  exact ⟨o, ho, Option.some_inj.1 hclient, hid⟩

theorem brokerOf_startPass {s : Store} (userId : Uuid) (ho : o ∈ s.orders) :
    (startPass s.begin userId).brokerOf o = orMissing o.brokerOrderId := by
  have hrow : (startPass s.begin userId).order? o.id = some o := s.valid.order?_eq ho
  rw [brokerOf, hrow]
  rfl

theorem indexed_startPass (s : Store) (userId : Uuid) :
    (startPass s.begin userId).Indexed s.toDatabase userId := by
  have hbroker : ∀ o ∈ localOrders s.toDatabase userId,
      (startPass s.begin userId).brokerOf o = orMissing o.brokerOrderId :=
    fun o ho => brokerOf_startPass userId (List.mem_of_mem_filter ho)
  refine ⟨sound_startPass s.begin userId rfl, fun b => ?_, ?_, fun o ho b hb => Or.inr ?_,
    fun o ho _ => s.valid.order?_eq ho⟩
  · exact (Index.lookup_of_congr fun o ho => by rw [hbroker o ho]).symm
  · rw [startPass, Index.of, ← List.filterMap_eq_map]
    rfl
  · rwa [← hbroker o ho]

theorem orMissing_some (hb : b ≠ "") : orMissing (some b) = some b := by
  rw [orMissing, Option.filter_some, if_pos (decide_eq_true hb)]

/-- An entry gives its broker id to an order that has none. -/
structure Attaches (stored : Database) (userId : Uuid) (p : Pass) (item : BrokerOrderItem)
    (o : TradingOrder) : Prop where
  loaded : o ∈ localOrders stored userId
  orderId : item.orderId ≠ ""
  fresh : p.byBroker.lookup item.orderId = none
  named : p.byCorrelation.lookup item.correlationId = some o.id
  before : ∀ y : TradingOrder, y.id = o.id → p.brokerOf y = none
  self : ∀ y : TradingOrder, y.id = o.id → (p.attach item).brokerOf y = some item.orderId
  rows : ∀ id, id ≠ o.id → (p.attach item).order? id = p.order? id
  lookup : ∀ b, (p.attach item).byBroker.lookup b =
    if b = item.orderId then some o.id else p.byBroker.lookup b
  byCorrelation : (p.attach item).byCorrelation = p.byCorrelation

theorem Attaches.others (h : p.Attaches stored userId item o) {y : TradingOrder}
    (hy : y.id ≠ o.id) : (p.attach item).brokerOf y = p.brokerOf y := by
  rw [brokerOf, brokerOf, h.rows _ hy]

/-- **One entry of the first loop** does nothing, or attaches its broker id. -/
theorem Indexed.attach_cases (h : p.Indexed stored userId) (item : BrokerOrderItem) :
    (p.attach item = p ∧ ∀ o, p.ofItem? item = some o → o.attached item = o) ∨
      ∃ o, p.Attaches stored userId item o := by
  refine (GnkAlgo.Pass.attach_cases p item).imp_right ?_
  rintro ⟨row, hrow, hne, hmissing, hattached, hp⟩
  rcases h.sound.ofItem?_cases item with ⟨-, hnone⟩ | ⟨row', htarget, hfound, hself⟩
  · rw [hnone] at hrow
    cases hrow
  obtain rfl := Option.some_inj.1 (hfound.symm.trans hrow)
  obtain ⟨o, ho, hid⟩ := h.sound.itemTarget_local htarget
  have hbefore : ∀ y : TradingOrder, y.id = o.id → p.brokerOf y = none := by
    intro y hy
    rw [brokerOf, hy, hid, hself]
    exact hmissing
  rw [hattached] at hp
  have hfresh : p.byBroker.lookup item.orderId = none := by
    cases hlookup : p.byBroker.lookup item.orderId with
    | none => rfl
    | some id =>
      -- what is found under the id has it in its row
      rw [itemTarget, hlookup] at htarget
      obtain ⟨y, -, hbroker, hy⟩ := h.exists_of_byBroker hlookup
      rw [hbefore y (by rw [hy, hid, Option.some_inj.1 htarget])] at hbroker
      cases hbroker
  refine ⟨o, ho, hne, hfresh, ?_, hbefore, fun y hy => ?_, fun id hne' => ?_, fun b => ?_,
    by rw [hp]; rfl⟩
  · rw [itemTarget, hfresh] at htarget
    rw [hid]
    exact htarget
  · have hrow' : (p.attach item).order? y.id =
        some { row' with brokerOrderId := some item.orderId } := by
      rw [hp, hy, hid]
      exact order?_setOrder_self hself rfl
    rw [brokerOf, hrow']
    exact orMissing_some hne
  · rw [hp]
    exact order?_setOrder_of_ne (by rwa [hid] at hne')
  · rw [hp, hid, List.lookup_cons]
    by_cases hb : b = item.orderId
    · rw [if_pos hb, beq_iff_eq.2 hb]
    · rw [if_neg hb, beq_false_of_ne hb]

theorem Indexed.attach (h : p.Indexed stored userId) (hv : stored.Valid)
    (item : BrokerOrderItem) : (p.attach item).Indexed stored userId := by
  rcases h.attach_cases item with ⟨hp, -⟩ | ⟨o₀, ha⟩
  · rw [hp]
    exact h
  refine ⟨h.sound.attach item, fun b => ?_, ha.byCorrelation.trans h.byCorrelation,
    fun o ho b hb => ?_, fun o ho hnot => ?_⟩
  · rw [ha.lookup, h.byBroker]
    exact (Index.lookup_of_assign ha.loaded (fun o _ hid => ha.before o hid) (ha.self o₀ rfl)
      (fun o _ hid => ha.self o hid) (fun o _ hid => ha.others hid)
      fun o ho => h.not_brokerOf ha.fresh ho).symm
  · rw [ha.lookup]
    by_cases hid : o.id = o₀.id
    · rw [ha.self o hid] at hb
      rw [if_pos (Option.some_inj.1 hb).symm, hid]
      exact Or.inl rfl
    · rw [ha.others hid] at hb
      have hne : b ≠ item.orderId := fun heq => h.not_brokerOf ha.fresh ho (heq ▸ hb)
      rw [if_neg hne]
      exact h.attached o ho b hb
  · have hne : o.id ≠ o₀.id := fun hid =>
      hnot (hv.eq_of_id ho (List.mem_of_mem_filter ha.loaded) hid ▸ ha.loaded)
    rw [ha.rows _ hne]
    exact h.others o ho hnot

/-- Once more, the entry attaches nothing: its id is entered, or the order of its
client id has one. -/
def Settled (stored : Database) (userId : Uuid) (p : Pass) (item : BrokerOrderItem) : Prop :=
  item.orderId ≠ "" → p.byBroker.lookup item.orderId = none →
    ∀ o ∈ localOrders stored userId, o.clientOrderId = item.correlationId → p.brokerOf o ≠ none

theorem Indexed.settled_attach (h : p.Indexed stored userId) (hv : stored.Valid)
    (item : BrokerOrderItem) : (p.attach item).Settled stored userId item := by
  intro hne hnone o ho hclient
  rcases h.attach_cases item with ⟨hp, hkeep⟩ | ⟨o₀, ha⟩
  · rw [hp] at hnone ⊢
    have hlookup := h.lookup_byCorrelation hv ho
    rw [hclient] at hlookup
    obtain ⟨row, hrow⟩ := Option.isSome_iff_exists.1 (h.sound.isSome_of_local ⟨o, ho, rfl⟩)
    have hfound : p.ofItem? item = some row := by
      rw [h.sound.ofItem?_eq, itemTarget, hnone, hlookup]
      exact hrow
    have hsame := hkeep row hfound
    rw [brokerOf, hrow]
    intro hmissing
    rw [TradingOrder.attached, if_pos ⟨hne, hmissing⟩] at hsame
    have hid := congrArg TradingOrder.brokerOrderId hsame
    change orMissing row.brokerOrderId = none at hmissing
    rw [← hid, orMissing_some hne] at hmissing
    cases hmissing
  · rw [ha.lookup, if_pos rfl] at hnone
    cases hnone

theorem Settled.attach (hs : p.Settled stored userId item) (h : p.Indexed stored userId)
    (other : BrokerOrderItem) : (p.attach other).Settled stored userId item := by
  intro hne hnone o ho hclient
  rcases h.attach_cases other with ⟨hp, -⟩ | ⟨o₀, ha⟩
  · rw [hp] at hnone ⊢
    exact hs hne hnone o ho hclient
  by_cases hid : o.id = o₀.id
  · rw [ha.self o hid]
    simp
  · rw [ha.lookup] at hnone
    rw [ha.others hid]
    split at hnone
    · cases hnone
    · exact hs hne hnone o ho hclient

/-- **The first loop** indexes the rows, and is done with each of its entries. -/
theorem indexed_attachedPass (s : Store) (userId : Uuid) (brokerOrders : List BrokerOrderItem) :
    (attachedPass s.begin userId brokerOrders).Indexed s.toDatabase userId ∧
      ∀ item ∈ brokerOrders,
        (attachedPass s.begin userId brokerOrders).Settled s.toDatabase userId item := by
  induction brokerOrders using List.reverseRecOn with
  | nil => exact ⟨indexed_startPass s userId, List.forall_mem_nil _⟩
  | append_singleton items item ih =>
    obtain ⟨hindexed, hsettled⟩ := ih
    rw [attachedPass, List.foldl_append]
    refine ⟨hindexed.attach s.valid item, fun x hx => ?_⟩
    rcases List.mem_append.1 hx with hx | hx
    · exact (hsettled x hx).attach hindexed item
    · rw [List.mem_singleton.1 hx]
      exact hindexed.settled_attach s.valid item

end Pass

/-! ## The rows that a pass leaves -/

section Rows

variable {now : Time} {s : Store} {userId : Uuid} {brokerOrders : List BrokerOrderItem}
  {trades : List TradeItem} {o : TradingOrder}

/-- The row of an order when the first loop is done. -/
def attachedRow (s : Store) (userId : Uuid) (brokerOrders : List BrokerOrderItem)
    (o : TradingOrder) : TradingOrder :=
  ((attachedPass s.begin userId brokerOrders).order? o.id).getD o

/-- The row of an order when its trades are imported. -/
def importedRow (now : Time) (s : Store) (userId : Uuid) (brokerOrders : List BrokerOrderItem)
    (trades : List TradeItem) (o : TradingOrder) : TradingOrder :=
  (namedTrades s userId brokerOrders trades o).foldl (TradingOrder.imported now s.toDatabase)
    (attachedRow s userId brokerOrders o)

/-- The row of an order at the end of the pass. -/
def endRow (now : Time) (s : Store) (userId : Uuid) (brokerOrders : List BrokerOrderItem)
    (trades : List TradeItem) (o : TradingOrder) : TradingOrder :=
  (namedItems s userId brokerOrders o).foldl (Pass.statusOf now)
    (importedRow now s userId brokerOrders trades o)

theorem attachedPass_order? (userId : Uuid) (brokerOrders : List BrokerOrderItem)
    (ho : o ∈ s.orders) :
    (attachedPass s.begin userId brokerOrders).order? o.id =
      some (attachedRow s userId brokerOrders o) ∧
    ∃ b, attachedRow s userId brokerOrders o = { o with brokerOrderId := b } := by
  obtain ⟨b, hb, -⟩ := Pass.order?_foldl_attach (Pass.sound_startPass s.begin userId rfl)
    brokerOrders o.id (s.valid.order?_eq ho)
  change (attachedPass s.begin userId brokerOrders).order? o.id = _ at hb
  rw [attachedRow, hb]
  exact ⟨rfl, b, rfl⟩

/-- **The rows of a committed pass.** -/
theorem reconcile_orders (hok : (reconcile now s userId brokerOrders trades).2 = .ok ()) :
    (reconcile now s userId brokerOrders trades).1.orders =
      s.orders.map (endRow now s userId brokerOrders trades) := by
  have hsound := (sound_importedPass now s userId brokerOrders trades).foldl_takeStatus now
    brokerOrders
  rw [reconcile_toDatabase hok]
  refine Rows.eq_map_of_find? s.valid.orderIds hsound.ids fun o ho => ?_
  have hrow := reconcileApply_order? now s userId brokerOrders trades o.id
  rw [(attachedPass_order? userId brokerOrders ho).1] at hrow
  exact hrow

/-- The columns by which a pass finds an order. -/
structure TradingOrder.SameColumns (o new : TradingOrder) : Prop where
  id : new.id = o.id
  userId : new.userId = o.userId
  mode : new.mode = o.mode
  clientOrderId : new.clientOrderId = o.clientOrderId
  brokerOrderId : new.brokerOrderId = o.brokerOrderId

theorem TradingOrder.SameColumns.trans {o mid new : TradingOrder} (h : o.SameColumns mid)
    (h' : mid.SameColumns new) : o.SameColumns new :=
  ⟨h'.id.trans h.id, h'.userId.trans h.userId, h'.mode.trans h.mode,
    h'.clientOrderId.trans h.clientOrderId, h'.brokerOrderId.trans h.brokerOrderId⟩

theorem imported_sameColumns (now : Time) (stored : Database) (o : TradingOrder)
    (item : TradeItem) : o.SameColumns (o.imported now stored item) := by
  unfold TradingOrder.imported
  split
  · exact ⟨rfl, rfl, rfl, rfl, rfl⟩
  split <;> exact ⟨rfl, rfl, rfl, rfl, rfl⟩

theorem endRow_sameColumns (now : Time) (s : Store) (userId : Uuid)
    (brokerOrders : List BrokerOrderItem) (trades : List TradeItem) (o : TradingOrder) :
    (attachedRow s userId brokerOrders o).SameColumns
      (endRow now s userId brokerOrders trades o) := by
  have himported : (attachedRow s userId brokerOrders o).SameColumns
      (importedRow now s userId brokerOrders trades o) :=
    List.foldlRecOn (motive := (attachedRow s userId brokerOrders o).SameColumns) _ _
      ⟨rfl, rfl, rfl, rfl, rfl⟩ fun x hx item _ =>
        hx.trans (imported_sameColumns now s.toDatabase x item)
  rw [endRow, foldl_statusOf_eq]
  exact himported.trans ⟨rfl, rfl, rfl, rfl, rfl⟩

/-- A pass leaves the orders alone that it has not loaded. -/
theorem endRow_of_not_local (now : Time) (trades : List TradeItem) (ho : o ∈ s.orders)
    (hnot : o ∉ localOrders s.toDatabase userId) :
    endRow now s userId brokerOrders trades o = o := by
  obtain ⟨htrades, hitems⟩ := attachedPass_nothing ho hnot brokerOrders trades
  have hrow := (Pass.indexed_attachedPass s userId brokerOrders).1.others o ho hnot
  rw [endRow, importedRow, namedItems, namedTrades, htrades, hitems, attachedRow, hrow]
  rfl

/-- **The orders that the next pass loads**: those loaded that have an open status
in the end. -/
theorem localOrders_reconcile (hok : (reconcile now s userId brokerOrders trades).2 = .ok ()) :
    localOrders (reconcile now s userId brokerOrders trades).1.toDatabase userId =
      ((localOrders s.toDatabase userId).filter fun o =>
        (endRow now s userId brokerOrders trades o).status ∈ openOrderStatuses).map
        (endRow now s userId brokerOrders trades) := by
  rw [localOrders, reconcile_orders hok, List.filter_map, localOrders, List.filter_filter]
  congr 1
  refine List.filter_congr fun o ho => ?_
  by_cases hlocal : o ∈ localOrders s.toDatabase userId
  · obtain ⟨-, huser, hmode, hopen⟩ := Pass.mem_localOrders.1 hlocal
    obtain ⟨-, b, hb⟩ := attachedPass_order? (s := s) userId brokerOrders ho
    have hsame := endRow_sameColumns now s userId brokerOrders trades o
    rw [hb] at hsame
    have huser' := hsame.userId.trans huser
    have hmode' := hsame.mode.trans hmode
    simp [huser, hmode, hopen, huser', hmode']
  · have hnot := fun h => hlocal (Pass.mem_localOrders.2 ⟨ho, h⟩)
    rw [Function.comp_apply, endRow_of_not_local now trades ho hlocal, decide_eq_false hnot,
      Bool.and_false]

end Rows

end GnkAlgo
