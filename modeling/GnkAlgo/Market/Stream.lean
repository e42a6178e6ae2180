import GnkAlgo.Lib.DropQueue
import GnkAlgo.Lib.Runs
import GnkAlgo.Models

/-!
# The quote stream

The WebSocket of `backend/app/routers/market.py` over the in-process `MarketBus` of
`backend/app/market/bus.py`.  Each connection has two tasks: one answers the client's
messages, the other takes quotes from a queue of 256 and sends those the client
subscribes to.  Client ids are random; here a connection's number is its client id.

* `publish`, `latest`, `replaceSubscriptions`, `disconnectClient` — the bus;
* `StreamConnection.handle` — the answer to a message;
* `StreamRun.Sound` — the invariant of the runs;
* `streams_registered` — the bus knows the subscriptions of the open connections, within
  the limit, and no others;
* `quotes_delivered` — what a connection gets of what is published for its user.
-/

namespace GnkAlgo

open Transition DropQueue

/-! ## Connections -/

/-- The `asyncio.Queue(maxsize=256)` of `listen`. -/
def queueSize : ℕ := 256

/-- What a connection sends. -/
inductive ServerMessage
  | ready (maxSubscriptions : ℕ)
  | pong
  | error (code : String)
  | subscribed (instrumentIds : List Uuid) (snapshots : List NormalizedQuote)
  | quote (data : NormalizedQuote)

inductive StreamAction
  | subscribe
  | unsubscribe
  deriving DecidableEq, Repr

/-- A message with an `action`: a ping, a command whose `instrument_ids` are a list, or
anything else. -/
inductive ClientMessage
  | ping
  | command (action : StreamAction) (instrumentIds : Finset Uuid) (mode : String := "quote")
  | invalid

/-- The task of `_send_quotes`, with the queue it reads, which is one of the bus's
`_queues` of its user. -/
inductive Sender
  | starting
  | listening (queue : List NormalizedQuote)
  | ended

structure StreamConnection where
  userId : Uuid
  isOpen : Bool := true
  subscriptions : Finset Uuid := ∅
  sender : Sender := .starting
  sent : List ServerMessage := []

def StreamConnection.send (c : StreamConnection) (message : ServerMessage) : StreamConnection :=
  { c with sent := c.sent ++ [message] }

/-! ## The bus -/

/-- The `_latest` and the `_clients`. -/
structure LocalBus where
  latest : Uuid × Uuid → Option NormalizedQuote := fun _ => none
  clients : Uuid × ℕ → Option (Finset Uuid) := fun _ => none

namespace LocalBus

variable (bus : LocalBus) (userId : Uuid)

/-- `MarketBus.latest`. -/
def latestOf (instrumentIds : List Uuid) : List NormalizedQuote :=
  instrumentIds.filterMap fun id => bus.latest (userId, id)

/-- `MarketBus.replace_subscriptions`. -/
def replaceSubscriptions (client : ℕ) (instrumentIds : Finset Uuid) : LocalBus :=
  { bus with clients := Function.update bus.clients (userId, client) (some instrumentIds) }

/-- `MarketBus.disconnect_client`. -/
def disconnectClient (client : ℕ) : LocalBus :=
  let bus := bus.replaceSubscriptions userId client ∅
  { bus with clients := Function.update bus.clients (userId, client) none }

/-- `MarketBus.active_subscriptions`. -/
def activeSubscriptions : Set (Uuid × Uuid) :=
  {key | ∃ client, ∃ ids ∈ bus.clients (key.1, client), key.2 ∈ ids}

end LocalBus

/-- The API process: its bus, its connections, and the instruments that are active. -/
structure StreamServer where
  bus : LocalBus := {}
  connections : ℕ → Option StreamConnection := fun _ => none
  instruments : Finset Uuid := ∅

/-- The loop of `publish` over the queues of the user. -/
def StreamConnection.offer (userId : Uuid) (quote : NormalizedQuote) (c : StreamConnection) :
    StreamConnection :=
  match c.sender with
  | .listening queue =>
    if c.userId = userId then { c with sender := .listening (push queueSize queue quote) } else c
  | _ => c

/-! ## Messages -/

/-- The subscriptions after a command. -/
def StreamAction.apply (action : StreamAction) (subscriptions requested : Finset Uuid) :
    Finset Uuid :=
  match action with
  | .subscribe => subscriptions ∪ requested
  | .unsubscribe => subscriptions \ requested

/-- The modes of a command. -/
def streamModes : List String := ["ltp", "quote", "depth"]

/-- The body of the loop of `stream`. -/
def StreamConnection.handle (maxSubscriptions : ℕ) (bus : LocalBus) (instruments : Finset Uuid)
    (client : ℕ) (c : StreamConnection) : ClientMessage → LocalBus × StreamConnection
  | .ping => (bus.replaceSubscriptions c.userId client c.subscriptions, c.send .pong)
  | .invalid => (bus, c.send (.error "INVALID_COMMAND"))
  | .command action requested mode =>
    let next := action.apply c.subscriptions requested
    if mode ∉ streamModes then (bus, c.send (.error "INVALID_MODE"))
    else if maxSubscriptions < next.card then (bus, c.send (.error "SUBSCRIPTION_LIMIT"))
    else if ¬ next ⊆ instruments then (bus, c.send (.error "INSTRUMENT_NOT_FOUND"))
    else
      let bus := bus.replaceSubscriptions c.userId client next
      let snapshots := bus.latestOf c.userId ((requested ∩ next).sort (· ≤ ·))
      (bus, { c with subscriptions := next }.send (.subscribed (next.sort (· ≤ ·)) snapshots))

/-! ## Runs -/

inductive StreamEvent
  /-- A connection whose ticket was good. -/
  | accept (number : ℕ) (userId : Uuid)
  /-- The sender runs for the first time. -/
  | listen (number : ℕ)
  | receive (number : ℕ) (message : ClientMessage)
  /-- The sender takes a quote. -/
  | deliver (number : ℕ)
  /-- The sender ends, for instance because it cannot send. -/
  | hangUp (number : ℕ)
  /-- The client is gone, or a message cannot be handled. -/
  | close (number : ℕ)
  | publish (userId : Uuid) (quote : NormalizedQuote)
  /-- Another process changes which instruments are active. -/
  | activate (instruments : Finset Uuid)

/-- What a sender has done: how many quotes had been published when it began to listen,
the quotes it took with whether they were subscribed to, and how many its queue lost. -/
structure SenderHistory where
  since : ℕ := 0
  taken : List (NormalizedQuote × Bool) := []
  lost : ℕ := 0

/-- The server with all that was published, and what each sender has done. -/
structure StreamRun extends StreamServer where
  published : List (Uuid × NormalizedQuote) := []
  history : ℕ → SenderHistory := fun _ => {}

namespace StreamRun

variable (maxSubscriptions : ℕ) (s : StreamRun)

def set (number : ℕ) (c : StreamConnection) : StreamRun :=
  { s with connections := Function.update s.connections number (some c) }

@[simp] theorem set_connections (number : ℕ) (c : StreamConnection) :
    (s.set number c).connections = Function.update s.connections number (some c) := rfl

def accept (number : ℕ) (userId : Uuid) : StreamRun :=
  match s.connections number with
  | none =>
    let c : StreamConnection := { userId := userId }
    s.set number (c.send (.ready maxSubscriptions))
  | some _ => s

def listen (number : ℕ) : StreamRun :=
  match s.connections number with
  | none => s
  | some c =>
    match c.sender with
    | .starting =>
      { s.set number { c with sender := .listening [] } with
        history := Function.update s.history number { since := s.published.length } }
    | _ => s

def receive (number : ℕ) (message : ClientMessage) : StreamRun :=
  match s.connections number with
  | none => s
  | some c =>
    if c.isOpen then
      let (bus, c) := c.handle maxSubscriptions s.bus s.instruments number message
      { s.set number c with bus := bus }
    else s

def deliver (number : ℕ) : StreamRun :=
  match s.connections number with
  | none => s
  | some c =>
    match c.sender with
    | .listening (quote :: queue) =>
      let subscribed := decide (quote.instrumentId ∈ c.subscriptions)
      let c := { c with sender := .listening queue }
      { s.set number (if subscribed then c.send (.quote quote) else c) with
        history := Function.update s.history number { s.history number with
          taken := (s.history number).taken ++ [(quote, subscribed)] } }
    | _ => s

def hangUp (number : ℕ) : StreamRun :=
  match s.connections number with
  | none => s
  | some c => s.set number { c with sender := .ended }

def close (number : ℕ) : StreamRun :=
  match s.connections number with
  | none => s
  | some c =>
    if c.isOpen then
      { s.set number { c with isOpen := false, sender := .ended } with
        bus := s.bus.disconnectClient c.userId number }
    else s

/-- What a publication costs a connection. -/
def lossOf (userId : Uuid) (c : StreamConnection) : ℕ :=
  match c.sender with
  | .listening queue => if c.userId = userId then pushLoss queueSize queue else 0
  | _ => 0

def publish (userId : Uuid) (quote : NormalizedQuote) : StreamRun :=
  { s with
    bus := { s.bus with
      latest := Function.update s.bus.latest (userId, quote.instrumentId) (some quote) }
    connections := fun i => (s.connections i).map (StreamConnection.offer userId quote)
    published := s.published ++ [(userId, quote)]
    history := fun i => { s.history i with
      lost := (s.history i).lost + ((s.connections i).map (lossOf userId)).getD 0 } }

end StreamRun

def streamStep (maxSubscriptions : ℕ) (s : StreamRun) : StreamEvent → StreamRun
  | .accept number userId => s.accept maxSubscriptions number userId
  | .listen number => s.listen number
  | .receive number message => s.receive maxSubscriptions number message
  | .deliver number => s.deliver number
  | .hangUp number => s.hangUp number
  | .close number => s.close number
  | .publish userId quote => s.publish userId quote
  | .activate instruments => { s with instruments := instruments }

/-! ## What is asked -/

/-- The quotes a connection has sent. -/
def StreamConnection.quotes (c : StreamConnection) : List NormalizedQuote :=
  c.sent.filterMap fun message => match message with
    | .quote data => some data
    | _ => none

/-- The quotes published for a user since some number of publications. -/
def offeredTo (published : List (Uuid × NormalizedQuote)) (userId : Uuid) (since : ℕ) :
    List NormalizedQuote :=
  ((published.drop since).filter fun p => p.1 = userId).map Prod.snd

/-- The last quote published for a user and an instrument. -/
def lastPublished (published : List (Uuid × NormalizedQuote)) (userId instrumentId : Uuid) :
    Option NormalizedQuote :=
  ((published.filter fun p => p.1 = userId ∧ p.2.instrumentId = instrumentId).map
    Prod.snd).getLast?

/-- The bus knows the open connections by their subscriptions, once they have any, and
nothing else. -/
structure StreamRun.Registered (maxSubscriptions : ℕ) (s : StreamRun) : Prop where
  limit : ∀ i c, s.connections i = some c → c.subscriptions.card ≤ maxSubscriptions
  known : ∀ i c, s.connections i = some c → c.isOpen →
    s.bus.clients (c.userId, i) = some c.subscriptions ∨
      (s.bus.clients (c.userId, i) = none ∧ c.subscriptions = ∅)
  owned : ∀ userId i ids, s.bus.clients (userId, i) = some ids →
    ∃ c, s.connections i = some c ∧ c.isOpen ∧ c.userId = userId

/-- A sender took what was offered, in order, and sent what was subscribed to; what its
queue has not lost waits in it. -/
structure StreamConnection.Delivered (c : StreamConnection)
    (published : List (Uuid × NormalizedQuote)) (h : SenderHistory) : Prop where
  since : h.since ≤ published.length
  order : (h.taken.map Prod.fst).Sublist (offeredTo published c.userId h.since)
  sent : c.quotes = (h.taken.filter Prod.snd).map Prod.fst
  starting : c.sender = .starting → h.taken = []
  listening : ∀ queue, c.sender = .listening queue →
    Accounts queueSize (offeredTo published c.userId h.since) (h.taken.map Prod.fst) queue h.lost

structure StreamRun.Delivering (s : StreamRun) : Prop where
  latest : ∀ userId instrumentId,
    s.bus.latest (userId, instrumentId) = lastPublished s.published userId instrumentId
  senders : ∀ i c, s.connections i = some c → c.Delivered s.published (s.history i)
  unused : ∀ i, s.connections i = none → s.history i = {}

/-! ## The registry -/

section Registry

variable {maxSubscriptions : ℕ} {s s' : StreamRun}

/-- What the registry depends on. -/
def StreamConnection.registry (c : StreamConnection) : Uuid × Bool × Finset Uuid :=
  (c.userId, c.isOpen, c.subscriptions)

/-- Steps of the senders. -/
theorem StreamRun.Registered.of_same (h : s.Registered maxSubscriptions)
    (hclients : s'.bus.clients = s.bus.clients)
    (hconnections : ∀ i, (s'.connections i).map StreamConnection.registry =
      (s.connections i).map StreamConnection.registry) : s'.Registered maxSubscriptions := by
  have hback : ∀ i c', s'.connections i = some c' →
      ∃ c, s.connections i = some c ∧ c.registry = c'.registry := by
    intro i c' hc'
    have heq := hconnections i
    rw [hc', Option.map_some] at heq
    obtain ⟨c, hc, hreg⟩ := Option.map_eq_some_iff.1 heq.symm
    exact ⟨c, hc, hreg⟩
  refine ⟨fun i c' hc' => ?_, fun i c' hc' hopen => ?_, fun userId i ids hids => ?_⟩
  · obtain ⟨c, hc, hreg⟩ := hback i c' hc'
    obtain ⟨-, hrest⟩ := Prod.mk.inj hreg
    obtain ⟨-, hsubs⟩ := Prod.mk.inj hrest
    exact hsubs ▸ h.limit i c hc
  · obtain ⟨c, hc, hreg⟩ := hback i c' hc'
    obtain ⟨huser, hrest⟩ := Prod.mk.inj hreg
    obtain ⟨hisOpen, hsubs⟩ := Prod.mk.inj hrest
    rw [hclients, ← huser, ← hsubs]
    exact h.known i c hc (hisOpen ▸ hopen)
  · rw [hclients] at hids
    obtain ⟨c, hc, hopen, huser⟩ := h.owned userId i ids hids
    have heq := hconnections i
    rw [hc, Option.map_some] at heq
    obtain ⟨c', hc', hreg⟩ := Option.map_eq_some_iff.1 heq
    obtain ⟨huser', hrest⟩ := Prod.mk.inj hreg
    obtain ⟨hisOpen, -⟩ := Prod.mk.inj hrest
    exact ⟨c', hc', hisOpen ▸ hopen, huser'.trans huser⟩

/-- A connection that changes what the registry does not depend on. -/
theorem StreamRun.Registered.set (h : s.Registered maxSubscriptions) {number : ℕ}
    {c : StreamConnection} (hc : s.connections number = some c) (c' : StreamConnection)
    (hreg : c'.registry = c.registry) : (s.set number c').Registered maxSubscriptions := by
  refine h.of_same rfl fun i => ?_
  by_cases hi : i = number
  · subst hi
    rw [StreamRun.set_connections, Function.update_self, hc, Option.map_some, Option.map_some, hreg]
  · rw [StreamRun.set_connections, Function.update_of_ne hi]

/-- A connection with new subscriptions, which the bus is told. -/
theorem StreamRun.Registered.resubscribe (h : s.Registered maxSubscriptions) {number : ℕ}
    {c : StreamConnection} (hc : s.connections number = some c) (c' : StreamConnection)
    (hopen : c'.isOpen) (huser : c'.userId = c.userId)
    (hlimit : c'.subscriptions.card ≤ maxSubscriptions) :
    StreamRun.Registered maxSubscriptions { s.set number c' with
      bus := s.bus.replaceSubscriptions c.userId number c'.subscriptions } := by
  refine ⟨fun i d hd => ?_, fun i d hd hdopen => ?_, fun userId i ids hids => ?_⟩
  · rw [StreamRun.set] at hd
    dsimp only at hd
    by_cases hi : i = number
    · subst hi
      rw [Function.update_self] at hd
      cases hd
      exact hlimit
    · rw [Function.update_of_ne hi] at hd
      exact h.limit i d hd
  · rw [StreamRun.set] at hd
    dsimp only at hd
    by_cases hi : i = number
    · subst hi
      rw [Function.update_self] at hd
      cases hd
      rw [huser]
      exact Or.inl (Function.update_self ..)
    · rw [Function.update_of_ne hi] at hd
      have hne : (d.userId, i) ≠ (c.userId, number) := fun heq => hi (congrArg Prod.snd heq)
      rw [LocalBus.replaceSubscriptions]
      dsimp only
      rw [Function.update_of_ne hne]
      exact h.known i d hd hdopen
  · rw [LocalBus.replaceSubscriptions] at hids
    dsimp only at hids
    by_cases hkey : (userId, i) = (c.userId, number)
    · obtain ⟨rfl, rfl⟩ := Prod.mk.inj hkey
      exact ⟨c', Function.update_self .., hopen, huser⟩
    · rw [Function.update_of_ne hkey] at hids
      obtain ⟨d, hd, hdopen, hduser⟩ := h.owned userId i ids hids
      have hi : i ≠ number := by
        rintro rfl
        rw [hc] at hd
        cases hd
        exact hkey (Prod.ext hduser.symm rfl)
      exact ⟨d, (Function.update_of_ne hi ..).trans hd, hdopen, hduser⟩

theorem registry_offer (userId : Uuid) (quote : NormalizedQuote) (c : StreamConnection) :
    (c.offer userId quote).registry = c.registry := by
  unfold StreamConnection.offer
  split
  · split <;> rfl
  · rfl

theorem StreamRun.Registered.accept (h : s.Registered maxSubscriptions) (number : ℕ)
    (userId : Uuid) : (s.accept maxSubscriptions number userId).Registered maxSubscriptions := by
  unfold StreamRun.accept
  split
  swap
  · exact h
  rename_i hnone
  have hfree : ∀ userId, s.bus.clients (userId, number) = none := by
    intro userId
    cases hids : s.bus.clients (userId, number) with
    | none => rfl
    | some ids =>
      obtain ⟨c, hc, -⟩ := h.owned userId number ids hids
      rw [hnone] at hc
      cases hc
  refine ⟨fun i c hc => ?_, fun i c hc hopen => ?_, fun userId i ids hids => ?_⟩
  · rw [StreamRun.set_connections] at hc
    by_cases hi : i = number
    · subst hi
      rw [Function.update_self] at hc
      cases hc
      exact Nat.zero_le _
    · rw [Function.update_of_ne hi] at hc
      exact h.limit i c hc
  · rw [StreamRun.set_connections] at hc
    by_cases hi : i = number
    · subst hi
      rw [Function.update_self] at hc
      cases hc
      exact Or.inr ⟨hfree _, rfl⟩
    · rw [Function.update_of_ne hi] at hc
      exact h.known i c hc hopen
  · obtain ⟨c, hc, hopen, huser⟩ := h.owned userId i ids hids
    have hi : i ≠ number := by
      rintro rfl
      rw [hnone] at hc
      cases hc
    exact ⟨c, (Function.update_of_ne hi ..).trans hc, hopen, huser⟩

theorem StreamRun.Registered.receive (h : s.Registered maxSubscriptions) (number : ℕ)
    (message : ClientMessage) :
    (s.receive maxSubscriptions number message).Registered maxSubscriptions := by
  unfold StreamRun.receive
  split
  · exact h
  rename_i c hc
  split
  swap
  · exact h
  rename_i hopen
  unfold StreamConnection.handle
  cases message with
  | ping => exact h.resubscribe hc (c.send .pong) hopen rfl (h.limit number c hc)
  | invalid => exact h.set hc _ rfl
  | command action requested mode =>
    dsimp only
    split_ifs with hmode hlimit hactive
    · exact h.set hc _ rfl
    · exact h.resubscribe hc
        ({ c with subscriptions := action.apply c.subscriptions requested }.send _) hopen rfl
          (Nat.not_lt.1 hlimit)
    · exact h.set hc _ rfl
    · exact h.set hc _ rfl

theorem StreamRun.Registered.close (h : s.Registered maxSubscriptions) (number : ℕ) :
    (s.close number).Registered maxSubscriptions := by
  unfold StreamRun.close
  split
  · exact h
  rename_i c hc
  split
  swap
  · exact h
  have hclients : ∀ userId i, (s.bus.disconnectClient c.userId number).clients (userId, i) =
      if (userId, i) = (c.userId, number) then none else s.bus.clients (userId, i) := by
    intro userId i
    rw [LocalBus.disconnectClient, LocalBus.replaceSubscriptions]
    dsimp only
    rw [Function.update_apply]
    split
    · rfl
    · rename_i hne
      exact Function.update_of_ne hne ..
  refine ⟨fun i d hd => ?_, fun i d hd hopen => ?_, fun userId i ids hids => ?_⟩
  · rw [StreamRun.set_connections] at hd
    by_cases hi : i = number
    · subst hi
      rw [Function.update_self] at hd
      cases hd
      exact h.limit i c hc
    · rw [Function.update_of_ne hi] at hd
      exact h.limit i d hd
  · rw [StreamRun.set_connections] at hd
    by_cases hi : i = number
    · subst hi
      rw [Function.update_self] at hd
      cases hd
      cases hopen
    · rw [Function.update_of_ne hi] at hd
      dsimp only
      rw [hclients, if_neg fun heq => hi (congrArg Prod.snd heq)]
      exact h.known i d hd hopen
  · dsimp only at hids
    rw [hclients] at hids
    split at hids
    · cases hids
    · rename_i hkey
      obtain ⟨d, hd, hopen, huser⟩ := h.owned userId i ids hids
      have hi : i ≠ number := by
        rintro rfl
        rw [hc] at hd
        cases hd
        exact hkey (Prod.ext huser.symm rfl)
      exact ⟨d, (Function.update_of_ne hi ..).trans hd, hopen, huser⟩

theorem registered_streamStep (h : s.Registered maxSubscriptions) (e : StreamEvent) :
    (streamStep maxSubscriptions s e).Registered maxSubscriptions := by
  cases e with
  | accept number userId => exact h.accept number userId
  | listen number =>
    rw [streamStep, StreamRun.listen]
    split
    · exact h
    rename_i c hc
    split
    · exact (h.set hc { c with sender := .listening [] } rfl).of_same rfl fun _ => rfl
    · exact h
  | receive number message => exact h.receive number message
  | deliver number =>
    rw [streamStep, StreamRun.deliver]
    split
    · exact h
    rename_i c hc
    split
    · rename_i quote queue hsender
      dsimp only
      split
      · exact (h.set hc ({ c with sender := .listening queue }.send (.quote quote)) rfl).of_same rfl
          fun _ => rfl
      · exact (h.set hc { c with sender := .listening queue } rfl).of_same rfl fun _ => rfl
    · exact h
  | hangUp number =>
    rw [streamStep, StreamRun.hangUp]
    split
    · exact h
    · rename_i c hc
      exact h.set hc _ rfl
  | close number => exact h.close number
  | publish userId quote =>
    refine h.of_same rfl fun i => ?_
    rw [streamStep, StreamRun.publish]
    dsimp only
    rw [Option.map_map]
    exact congrArg (Option.map · (s.connections i)) (funext (registry_offer userId quote))
  | activate instruments => exact h.of_same rfl fun _ => rfl

variable (maxSubscriptions) in
/-- **The bus and the connections agree** in every run: an instrument of a user is active
exactly while an open connection of the user subscribes to it, no connection
subscribes to more than the limit, and every entry of the bus is that of an open
connection, with its subscriptions. -/
theorem streams_registered (events : List StreamEvent) :
    (∀ userId instrumentId, (userId, instrumentId) ∈
      (events.foldl (streamStep maxSubscriptions) {}).bus.activeSubscriptions ↔
        ∃ i c, (events.foldl (streamStep maxSubscriptions) {}).connections i = some c ∧
          c.isOpen ∧ c.userId = userId ∧ instrumentId ∈ c.subscriptions) ∧
    (∀ i c, (events.foldl (streamStep maxSubscriptions) {}).connections i = some c →
      c.subscriptions.card ≤ maxSubscriptions) ∧
    ∀ userId i ids, (events.foldl (streamStep maxSubscriptions) {}).bus.clients (userId, i) =
      some ids → ∃ c, (events.foldl (streamStep maxSubscriptions) {}).connections i = some c ∧
        c.isOpen ∧ c.userId = userId ∧ c.subscriptions = ids := by
  have hstart : StreamRun.Registered maxSubscriptions {} := by
    refine ⟨fun i c hc => ?_, fun i c hc => ?_, fun userId i ids hids => ?_⟩
    · cases hc
    · cases hc
    · cases hids
  have h : (events.foldl (streamStep maxSubscriptions) {}).Registered maxSubscriptions :=
    (run_foldl (streamStep maxSubscriptions) {} events).invariant hstart
      fun s e t hs ht => ht ▸ registered_streamStep hs e
  generalize events.foldl (streamStep maxSubscriptions) {} = s at h
  have hentry : ∀ userId i ids, s.bus.clients (userId, i) = some ids →
      ∃ c, s.connections i = some c ∧ c.isOpen ∧ c.userId = userId ∧ c.subscriptions = ids := by
    intro userId i ids hids
    obtain ⟨c, hc, hopen, rfl⟩ := h.owned userId i ids hids
    refine ⟨c, hc, hopen, rfl, ?_⟩
    rcases h.known i c hc hopen with hknown | ⟨hnone, -⟩
    · exact Option.some.inj (hknown.symm.trans hids)
    · rw [hids] at hnone
      cases hnone
  refine ⟨fun userId instrumentId => ⟨?_, ?_⟩, h.limit, hentry⟩
  · rintro ⟨i, ids, hids, hmem⟩
    obtain ⟨c, hc, hopen, huser, rfl⟩ := hentry userId i ids hids
    exact ⟨i, c, hc, hopen, huser, hmem⟩
  · rintro ⟨i, c, hc, hopen, rfl, hmem⟩
    rcases h.known i c hc hopen with hknown | ⟨-, hempty⟩
    · exact ⟨i, c.subscriptions, hknown, hmem⟩
    · rw [hempty] at hmem
      exact absurd hmem (Finset.notMem_empty instrumentId)

end Registry

/-! ## The quotes -/

section Delivery

variable {maxSubscriptions : ℕ} {s s' : StreamRun} {published : List (Uuid × NormalizedQuote)}
  {c c' : StreamConnection} {h : SenderHistory}

theorem offeredTo_concat {since : ℕ} (hsince : since ≤ published.length) (userId : Uuid)
    (p : Uuid × NormalizedQuote) : offeredTo (published ++ [p]) userId since =
      offeredTo published userId since ++ if p.1 = userId then [p.2] else [] := by
  unfold offeredTo
  rw [List.drop_append_of_le_length hsince, List.filter_append, List.map_append]
  congr 1
  split
  · rename_i huser
    rw [List.filter_singleton, decide_eq_true huser]
    rfl
  · rename_i huser
    rw [List.filter_singleton, decide_eq_false huser]
    rfl

theorem lastPublished_concat (p : Uuid × NormalizedQuote) (userId instrumentId : Uuid) :
    lastPublished (published ++ [p]) userId instrumentId =
      if p.1 = userId ∧ p.2.instrumentId = instrumentId then some p.2
      else lastPublished published userId instrumentId := by
  unfold lastPublished
  rw [List.filter_append, List.map_append, List.filter_singleton]
  split
  · rename_i hkey
    rw [decide_eq_true hkey]
    exact List.getLast?_concat ..
  · rename_i hkey
    rw [decide_eq_false hkey]
    exact congrArg List.getLast? (List.append_nil _)

theorem StreamConnection.quotes_send_quote (c : StreamConnection) (quote : NormalizedQuote) :
    (c.send (.quote quote)).quotes = c.quotes ++ [quote] := by
  unfold StreamConnection.quotes StreamConnection.send
  rw [List.filterMap_append]
  rfl

/-- A message that is no quote. -/
theorem StreamConnection.quotes_append {c c' : StreamConnection} {message : ServerMessage}
    (hsent : c'.sent = c.sent ++ [message]) (hmessage : ∀ quote, message ≠ .quote quote) :
    c'.quotes = c.quotes := by
  unfold StreamConnection.quotes
  rw [hsent, List.filterMap_append]
  cases message with
  | quote data => exact absurd rfl (hmessage data)
  | _ => exact List.append_nil _

/-- A connection whose sender and quotes are as they were. -/
theorem StreamConnection.Delivered.congr (hc : c.Delivered published h)
    (huser : c'.userId = c.userId) (hsender : c'.sender = c.sender)
    (hquotes : c'.quotes = c.quotes) : c'.Delivered published h where
  since := hc.since
  order := huser ▸ hc.order
  sent := hquotes.trans hc.sent
  starting hs := hc.starting (hsender ▸ hs)
  listening queue hq := huser ▸ hc.listening queue (hsender ▸ hq)

/-- The sender has ended. -/
theorem StreamConnection.Delivered.ended (hc : c.Delivered published h)
    (huser : c'.userId = c.userId) (hsender : c'.sender = .ended)
    (hquotes : c'.quotes = c.quotes) : c'.Delivered published h where
  since := hc.since
  order := huser ▸ hc.order
  sent := hquotes.trans hc.sent
  starting hs := by
    rw [hsender] at hs
    cases hs
  listening queue hq := by
    rw [hsender] at hq
    cases hq

/-- One connection changes, with its history. -/
theorem StreamRun.Delivering.update (hs : s.Delivering) {number : ℕ}
    (hlatest : s'.bus.latest = s.bus.latest) (hpublished : s'.published = s.published)
    (hconnections : s'.connections = Function.update s.connections number (some c'))
    (hhistory : ∀ i, i ≠ number → s'.history i = s.history i)
    (hc' : c'.Delivered s.published (s'.history number)) : s'.Delivering := by
  refine ⟨fun userId instrumentId => ?_, fun i d hd => ?_, fun i hnone => ?_⟩
  · rw [hlatest, hpublished]
    exact hs.latest userId instrumentId
  · rw [hconnections] at hd
    rw [hpublished]
    by_cases hi : i = number
    · subst hi
      rw [Function.update_self] at hd
      cases hd
      exact hc'
    · rw [Function.update_of_ne hi] at hd
      rw [hhistory i hi]
      exact hs.senders i d hd
  · rw [hconnections] at hnone
    by_cases hi : i = number
    · subst hi
      rw [Function.update_self] at hnone
      cases hnone
    · rw [Function.update_of_ne hi] at hnone
      rw [hhistory i hi]
      exact hs.unused i hnone

/-- What is published reaches the queue of the user. -/
theorem StreamConnection.Delivered.offer (hc : c.Delivered published h) (userId : Uuid)
    (quote : NormalizedQuote) :
    (c.offer userId quote).Delivered (published ++ [(userId, quote)])
      { h with lost := h.lost + StreamRun.lossOf userId c } := by
  have hoffered := offeredTo_concat hc.since c.userId (userId, quote)
  have hsame : (c.offer userId quote).userId = c.userId ∧
      (c.offer userId quote).quotes = c.quotes := by
    unfold StreamConnection.offer
    split
    · split
      · exact ⟨rfl, rfl⟩
      · exact ⟨rfl, rfl⟩
    · exact ⟨rfl, rfl⟩
  refine ⟨?_, ?_, hsame.2.trans hc.sent, fun hstarting => ?_, fun queue' hqueue' => ?_⟩
  · rw [List.length_append]
    exact Nat.le_add_right_of_le hc.since
  · rw [hsame.1, hoffered]
    exact hc.order.trans (List.sublist_append_left ..)
  · refine hc.starting ?_
    unfold StreamConnection.offer at hstarting
    split at hstarting
    · rename_i queue hqueue
      split at hstarting
      · cases hstarting
      · exact hstarting
    · exact hstarting
  · rw [hsame.1, hoffered]
    dsimp only
    cases hsender : c.sender with
    | listening queue =>
      have haccounts := hc.listening queue hsender
      unfold StreamConnection.offer at hqueue'
      unfold StreamRun.lossOf
      rw [hsender] at hqueue' ⊢
      dsimp only at hqueue' ⊢
      by_cases huser : c.userId = userId
      · rw [if_pos huser] at hqueue' ⊢
        cases hqueue'
        rw [if_pos huser.symm]
        exact haccounts.push (by decide) quote
      · rw [if_neg huser] at hqueue' ⊢
        rw [hsender] at hqueue'
        cases hqueue'
        rw [if_neg (Ne.symm huser), List.append_nil]
        exact haccounts
    | starting =>
      unfold StreamConnection.offer at hqueue'
      rw [hsender] at hqueue'
      dsimp only at hqueue'
      rw [hsender] at hqueue'
      cases hqueue'
    | ended =>
      unfold StreamConnection.offer at hqueue'
      rw [hsender] at hqueue'
      dsimp only at hqueue'
      rw [hsender] at hqueue'
      cases hqueue'

theorem StreamRun.Delivering.publish (hs : s.Delivering) (userId : Uuid)
    (quote : NormalizedQuote) : (s.publish userId quote).Delivering := by
  refine ⟨fun user instrumentId => ?_, fun i d hd => ?_, fun i hnone => ?_⟩
  · rw [StreamRun.publish]
    dsimp only
    rw [lastPublished_concat, Function.update_apply]
    split
    · rename_i hkey
      obtain ⟨rfl, rfl⟩ := Prod.mk.inj hkey
      exact (if_pos ⟨rfl, rfl⟩).symm
    · rename_i hkey
      rw [if_neg fun hand => hkey (Prod.ext hand.1.symm hand.2.symm)]
      exact hs.latest user instrumentId
  · obtain ⟨c, hc, rfl⟩ := Option.map_eq_some_iff.1 hd
    have hoffer := (hs.senders i c hc).offer userId quote
    rw [StreamRun.publish]
    dsimp only
    rw [hc]
    exact hoffer
  · have hnone' : s.connections i = none := Option.map_eq_none_iff.1 hnone
    rw [StreamRun.publish]
    dsimp only
    rw [hnone', hs.unused i hnone']
    rfl

theorem StreamRun.Delivering.deliver (hs : s.Delivering) (number : ℕ) :
    (s.deliver number).Delivering := by
  unfold StreamRun.deliver
  split
  · exact hs
  rename_i c hc
  split
  swap
  · exact hs
  rename_i quote queue hsender
  have hold := hs.senders number c hc
  have haccounts := (hold.listening _ hsender).pop
  have hmap : ∀ b : Bool, ((s.history number).taken ++ [(quote, b)]).map Prod.fst =
      (s.history number).taken.map Prod.fst ++ [quote] := fun b => List.map_append
  refine hs.update rfl rfl rfl (fun i hi => Function.update_of_ne hi ..) ?_
  dsimp only
  rw [Function.update_self]
  by_cases hmem : quote.instrumentId ∈ c.subscriptions
  · rw [decide_eq_true hmem, if_pos rfl]
    refine ⟨hold.since, ?_, ?_, fun hstarting => ?_, fun q hq => ?_⟩
    · rw [hmap]
      exact haccounts.taken_sublist
    · rw [StreamConnection.quotes_send_quote, List.filter_append, List.map_append]
      exact congrArg (· ++ [quote]) hold.sent
    · cases hstarting
    · cases hq
      rw [hmap]
      exact haccounts
  · rw [decide_eq_false hmem, if_neg Bool.false_ne_true]
    refine ⟨hold.since, ?_, ?_, fun hstarting => ?_, fun q hq => ?_⟩
    · rw [hmap]
      exact haccounts.taken_sublist
    · rw [List.filter_append]
      exact hold.sent.trans (congrArg (List.map Prod.fst) (List.append_nil _).symm)
    · cases hstarting
    · cases hq
      rw [hmap]
      exact haccounts

variable (maxSubscriptions) in
/-- The answer to a message concerns neither the quotes nor the sender. -/
theorem handle_frame (bus : LocalBus) (instruments : Finset Uuid) (client : ℕ)
    (c : StreamConnection) (message : ClientMessage) :
    (c.handle maxSubscriptions bus instruments client message).1.latest = bus.latest ∧
    (c.handle maxSubscriptions bus instruments client message).2.userId = c.userId ∧
    (c.handle maxSubscriptions bus instruments client message).2.sender = c.sender ∧
    (c.handle maxSubscriptions bus instruments client message).2.quotes = c.quotes := by
  have hsend : ∀ {c' : StreamConnection} {answer : ServerMessage},
      c'.sent = c.sent ++ [answer] → (∀ quote, answer ≠ .quote quote) → c'.quotes = c.quotes :=
    fun hsent hanswer => StreamConnection.quotes_append hsent hanswer
  unfold StreamConnection.handle
  cases message with
  | ping =>
    refine ⟨rfl, rfl, rfl, hsend rfl fun quote h => ?_⟩
    cases h
  | invalid =>
    refine ⟨rfl, rfl, rfl, hsend rfl fun quote h => ?_⟩
    cases h
  | command action requested mode =>
    dsimp only
    split
    · refine ⟨rfl, rfl, rfl, hsend rfl fun quote h => ?_⟩
      cases h
    split
    · refine ⟨rfl, rfl, rfl, hsend rfl fun quote h => ?_⟩
      cases h
    split
    · refine ⟨rfl, rfl, rfl, hsend rfl fun quote h => ?_⟩
      cases h
    · refine ⟨rfl, rfl, rfl, hsend rfl fun quote h => ?_⟩
      cases h

theorem delivering_streamStep (hs : s.Delivering) (e : StreamEvent) :
    (streamStep maxSubscriptions s e).Delivering := by
  cases e with
  | accept number userId =>
    rw [streamStep, StreamRun.accept]
    split
    · rename_i hnone
      refine hs.update rfl rfl rfl (fun _ _ => rfl) ?_
      rw [StreamRun.set, hs.unused number hnone]
      exact ⟨Nat.zero_le _, List.nil_sublist _, rfl, fun _ => rfl, fun _ hq => nomatch hq⟩
    · exact hs
  | listen number =>
    rw [streamStep, StreamRun.listen]
    split
    · exact hs
    rename_i c hc
    split
    swap
    · exact hs
    rename_i hsender
    have hold := hs.senders number c hc
    refine hs.update rfl rfl rfl (fun i hi => Function.update_of_ne hi ..) ?_
    dsimp only
    rw [Function.update_self]
    have hempty : offeredTo s.published c.userId s.published.length = [] := by
      rw [offeredTo, List.drop_length]
      rfl
    refine ⟨le_rfl, List.nil_sublist _, ?_, fun _ => rfl, fun queue hqueue => ?_⟩
    · have hsent := hold.sent
      rw [hold.starting hsender] at hsent
      exact hsent
    · cases hqueue
      dsimp only
      rw [hempty]
      exact accounts_nil queueSize
  | receive number message =>
    rw [streamStep, StreamRun.receive]
    split
    · exact hs
    rename_i c hc
    split
    swap
    · exact hs
    obtain ⟨hlatest, huser, hsender, hquotes⟩ := handle_frame
      maxSubscriptions s.bus s.instruments number c message
    exact hs.update hlatest rfl rfl (fun _ _ => rfl)
      ((hs.senders number c hc).congr huser hsender hquotes)
  | deliver number => exact hs.deliver number
  | hangUp number =>
    rw [streamStep, StreamRun.hangUp]
    split
    · exact hs
    · rename_i c hc
      exact hs.update rfl rfl rfl (fun _ _ => rfl) ((hs.senders number c hc).ended rfl rfl rfl)
  | close number =>
    rw [streamStep, StreamRun.close]
    split
    · exact hs
    rename_i c hc
    split
    · exact hs.update rfl rfl rfl (fun _ _ => rfl) ((hs.senders number c hc).ended rfl rfl rfl)
    · exact hs
  | publish userId quote => exact hs.publish userId quote
  | activate instruments => exact ⟨hs.latest, hs.senders, hs.unused⟩

variable (maxSubscriptions) in
/-- **What a connection gets**, in every run.  Its sender took quotes that were published
for its user while it listened, in their order, and sent exactly those that were
subscribed to when they were taken.  The queue holds no more than 256, and always the last
ones; and as long as it has lost none, what was taken and what waits is all there was.  And
`latest` knows the last quote of each instrument. -/
theorem quotes_delivered (events : List StreamEvent) :
    (∀ userId instrumentId,
      (events.foldl (streamStep maxSubscriptions) {}).bus.latest (userId, instrumentId) =
        lastPublished (events.foldl (streamStep maxSubscriptions) {}).published userId
          instrumentId) ∧
    ∀ i c, (events.foldl (streamStep maxSubscriptions) {}).connections i = some c →
      let h := (events.foldl (streamStep maxSubscriptions) {}).history i
      let offered := offeredTo (events.foldl (streamStep maxSubscriptions) {}).published c.userId
        h.since
      (h.taken.map Prod.fst).Sublist offered ∧
      c.quotes = (h.taken.filter Prod.snd).map Prod.fst ∧
      ∀ queue, c.sender = .listening queue →
        queue.length ≤ 256 ∧ queue <:+ offered ∧
        (h.lost = 0 → h.taken.map Prod.fst ++ queue = offered) := by
  have hstart : StreamRun.Delivering {} := by
    refine ⟨fun userId instrumentId => rfl, fun i c hc => ?_, fun i _ => rfl⟩
    cases hc
  have h : (events.foldl (streamStep maxSubscriptions) {}).Delivering :=
    (run_foldl (streamStep maxSubscriptions) {} events).invariant hstart
      fun s e t hs ht => ht ▸ delivering_streamStep hs e
  generalize events.foldl (streamStep maxSubscriptions) {} = s at h
  refine ⟨h.latest, fun i c hc => ?_⟩
  have hdelivered := h.senders i c hc
  refine ⟨hdelivered.order, hdelivered.sent, fun queue hqueue => ?_⟩
  have haccounts := hdelivered.listening queue hqueue
  refine ⟨haccounts.bounded, haccounts.latest, fun hlost => ?_⟩
  rw [hlost] at haccounts
  exact haccounts.eq_of_lost_eq_zero

end Delivery

end GnkAlgo
