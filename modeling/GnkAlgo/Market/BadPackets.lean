import GnkAlgo.Market.FeedConnection
import GnkAlgo.Market.Frames

/-!
# Packets that are refused

What `_connected` of `backend/app/market/dhan.py` does with the messages it receives,
down to `_handle_dhan_packet` of `backend/app/market/worker.py` and the `normalize` of
`DhanV2Adapter`.  A packet whose quote is refused raises out of the loop, and neither
the packets after it in its message nor any later message of the connection is handed
out.  What the worker does with a quote that passes is taken to succeed.

* `normalizeDhan` — the quote of a packet, with the fields pydantic refuses;
* `FeedInbox.receive` — a message;
* `packetsDue` — the packets to hand out, each over the open interest and previous
  close received before it;
* `packets_passed_iff` — all of them are handed out exactly when none is due after one
  that is refused.
-/

namespace GnkAlgo

open Packing

/-! ## Quotes -/

/-- The bounds of `NormalizedQuote` as pydantic checks them on a float. -/
structure FieldBounds where
  /-- `Field(gt=0)`. -/
  isPositive : Single → Bool
  /-- `Field(ge=0)`. -/
  isNonneg : Single → Bool

/-- A subscription with what its instrument lends to quotes. -/
structure FeedTarget extends DhanSubscription where
  exchange : String
  segment : String
  tradingSymbol : String
  deriving DecidableEq, Repr

/-- A `NormalizedQuote` of the Dhan feed; where no trade time is sent,
`exchange_timestamp` is the moment. -/
structure DhanQuote where
  instrumentId : Uuid
  exchange : String
  segment : String
  tradingSymbol : String
  source : String := "DHAN"
  mode : String
  sequence : ℕ
  exchangeTimestamp : Option Time
  ltp : Single
  lastQuantity : Option ℕ
  opening : Option Single
  high : Option Single
  low : Option Single
  previousClose : Option Single
  volume : Option ℕ
  openInterest : Option ℕ
  bid : Option Single
  ask : Option Single
  depth : Option (List DepthLevel)
  deriving DecidableEq, Repr

inductive NormalizeError
  /-- `float(None)`. -/
  | typeError
  /-- The fields of a `ValidationError`. -/
  | validation (fields : List String)
  deriving DecidableEq, Repr

/-- `_timestamp`; a large number is one of milliseconds. -/
def dhanTimestamp (value : Option ℕ) : Option Time :=
  (value.filter (· ≠ 0)).map fun seconds =>
    if 10000000000 < seconds then (seconds : ℤ) * 1000 else (seconds : ℤ) * 1000000

/-- The fields of a quote that are out of bounds. -/
def DhanQuote.refusedFields (bounds : FieldBounds) (quote : DhanQuote) : List String :=
  let floats : List (String × Option Single) := [("open", quote.opening), ("high", quote.high),
    ("low", quote.low), ("previous_close", quote.previousClose), ("bid", quote.bid),
    ("ask", quote.ask)]
  (if bounds.isPositive quote.ltp then [] else ["ltp"]) ++
    (floats.filter fun (_, value) => ¬ value.all bounds.isNonneg).map Prod.fst

open PacketKey in
/-- `DhanV2Adapter.normalize`. -/
def normalizeDhan (bounds : FieldBounds) (target : FeedTarget) (payload : Packet) (sequence : ℕ) :
    Except NormalizeError DhanQuote :=
  match payload LTP with
  | none => .error .typeError
  | some ltp =>
    let quote : DhanQuote := {
      instrumentId := target.instrumentId
      exchange := target.exchange
      segment := target.segment
      tradingSymbol := target.tradingSymbol
      mode := if (payload depth).isSome then "depth" else "quote"
      sequence := sequence
      exchangeTimestamp := dhanTimestamp (payload LTT)
      ltp := ltp
      lastQuantity := payload LTQ
      opening := payload opening
      high := payload high
      low := payload low
      previousClose := payload close
      volume := payload volume
      openInterest := payload OI
      bid := payload bid
      ask := payload ask
      depth := payload depth }
    match quote.refusedFields bounds with
    | [] => .ok quote
    | fields => .error (.validation fields)

/-! ## Messages -/

/-- `{**other, **packet}`. -/
def Packet.over (packet other : Packet) : Packet := fun key => (packet key).or (other key)

def Packet.code (packet : Packet) : ℕ := (packet .responseCode).getD 0

/-- `(packet["exchange_segment"], packet["security_id"])`. -/
def Packet.feedKey (packet : Packet) : ℕ × String :=
  ((packet .exchangeSegment).getD 0, (packet .securityId).getD "")

/-- What ends the loop. -/
inductive LoopError
  | disconnected (code : ℕ)
  | decode (error : FeedError)
  | normalize (error : NormalizeError)
  deriving DecidableEq, Repr

/-- The session and the worker, as far as packets of one user go. -/
structure FeedInbox where
  /-- `_partial`, with nothing for a key that is not in it. -/
  partials : ℕ × String → Packet := fun _ => .empty
  /-- `sequences` of the worker. -/
  sequences : Uuid → ℕ := fun _ => 0
  /-- The calls of `on_packet`. -/
  passed : List (FeedTarget × Packet) := []
  quotes : List DhanQuote := []
  error : Option LoopError := none

/-- `_handle_dhan_packet`, called as `on_packet`. -/
def FeedInbox.onPacket (bounds : FieldBounds) (s : FeedInbox) (target : FeedTarget)
    (payload : Packet) : FeedInbox :=
  let sequence := s.sequences target.instrumentId + 1
  let called := { s with
    sequences := Function.update s.sequences target.instrumentId sequence
    passed := s.passed ++ [(target, payload)] }
  match normalizeDhan bounds target payload sequence with
  | .error e => { called with error := some (.normalize e) }
  | .ok quote => { called with quotes := s.quotes ++ [quote] }

/-- A packet with the subscriptions that are active as its message is received. -/
structure FeedItem where
  active : List FeedTarget
  packet : Packet

/-- `active.get(key)`. -/
def FeedItem.target? (item : FeedItem) : Option FeedTarget :=
  item.active.find? fun target => target.key = item.packet.feedKey

/-- The body of the loop over the packets of a message. -/
def FeedInbox.take (bounds : FieldBounds) (s : FeedInbox) (item : FeedItem) : FeedInbox :=
  if s.error ≠ none then s
  else if item.packet.code = 50 then
    { s with error := some (.disconnected ((item.packet .disconnectCode).getD 0)) }
  else
    let key := item.packet.feedKey
    if item.packet.code ∈ [5, 6] then
      { s with partials := Function.update s.partials key (item.packet.over (s.partials key)) }
    else if item.packet.code ∉ [2, 4, 8] then s
    else match item.target? with
      | none => s
      | some target => s.onPacket bounds target (item.packet.over (s.partials key))

/-- A binary message, and the subscriptions that are active as it is received. -/
structure FeedReceipt where
  active : List FeedTarget
  message : List UInt8

/-- A message that is received; there is none after the loop has ended. -/
def FeedInbox.receive (bounds : FieldBounds) (s : FeedInbox) (receipt : FeedReceipt) : FeedInbox :=
  if s.error ≠ none then s
  else match decodeDhanFrames receipt.message with
    | .error e => { s with error := some (.decode e) }
    | .ok packets => (packets.map (FeedItem.mk receipt.active)).foldl (FeedInbox.take bounds) s

/-! ## What is asked -/

/-- The packets of the messages that decode, in order. -/
def packetsOf (receipts : List FeedReceipt) : List FeedItem :=
  receipts.flatMap fun receipt =>
    ((decodeDhanFrames receipt.message).toOption.getD []).map (FeedItem.mk receipt.active)

/-- A packet with the open interest or the previous close of a key. -/
def FeedItem.carries (key : ℕ × String) (item : FeedItem) : Bool :=
  item.packet.code ∈ [5, 6] ∧ item.packet.feedKey = key

/-- The open interest and previous close of a key after some packets: the fields of the
packets that carry them, later ones over earlier ones, over those there were. -/
def latestPartial (start : ℕ × String → Packet) (before : List FeedItem) (key : ℕ × String) :
    Packet :=
  (before.filter (FeedItem.carries key)).foldl (fun partials item => item.packet.over partials)
    (start key)

/-- The packet is of a subscribed key, with code 2, 4 or 8: whom it is for, and what is
handed out. -/
def packetDue (start : ℕ × String → Packet) (before : List FeedItem) (item : FeedItem) :
    Option (FeedTarget × Packet) :=
  if item.packet.code ∈ [2, 4, 8] then
    item.target?.map (·, item.packet.over (latestPartial start before item.packet.feedKey))
  else none

/-- What is to be handed out of some packets, after others. -/
def packetsDue (start : ℕ × String → Packet) (before : List FeedItem) :
    List FeedItem → List (FeedTarget × Packet)
  | [] => []
  | item :: items =>
    (packetDue start before item).toList ++ packetsDue start (before ++ [item]) items

/-- Normalisation refuses what is handed out for the packet. -/
def FeedItem.Refused (bounds : FieldBounds) (start : ℕ × String → Packet) (before : List FeedItem)
    (item : FeedItem) : Prop :=
  ∃ target payload, packetDue start before item = some (target, payload) ∧
    ∀ sequence, ∃ e, normalizeDhan bounds target payload sequence = .error e

/-! ## One packet -/

section Take

variable {bounds : FieldBounds} {s : FeedInbox} {start : ℕ × String → Packet}
  {before items : List FeedItem} {item : FeedItem} {target : FeedTarget} {payload : Packet}

theorem latestPartial_concat_of_pos (h : item.packet.code ∈ [5, 6]) :
    latestPartial start (before ++ [item]) = Function.update (latestPartial start before)
      item.packet.feedKey (item.packet.over (latestPartial start before item.packet.feedKey)) := by
  funext key
  unfold latestPartial
  by_cases hkey : item.packet.feedKey = key
  · subst hkey
    have hin : item.carries item.packet.feedKey := decide_eq_true ⟨h, rfl⟩
    rw [Rows.filter_concat_of_pos hin, List.foldl_concat, Function.update_self]
  · have hout : ¬ item.carries key := fun hboth => hkey (of_decide_eq_true hboth).2
    rw [Rows.filter_concat_of_neg hout, Function.update_of_ne (Ne.symm hkey)]

theorem latestPartial_concat_of_neg (h : item.packet.code ∉ [5, 6]) :
    latestPartial start (before ++ [item]) = latestPartial start before := by
  funext key
  have hout : ¬ item.carries key := fun hboth => h (of_decide_eq_true hboth).1
  unfold latestPartial
  rw [Rows.filter_concat_of_neg hout]

/-- Whether a quote is refused does not depend on its number. -/
theorem normalizeDhan_sequence {n : ℕ} {e : NormalizeError}
    (h : normalizeDhan bounds target payload n = .error e) (m : ℕ) :
    normalizeDhan bounds target payload m = .error e := by
  unfold normalizeDhan DhanQuote.refusedFields at h ⊢
  split at h
  · exact h
  · dsimp only at h ⊢
    generalize (_ ++ _ : List String) = fields at h ⊢
    cases fields with
    | nil => cases h
    | cons field fields => exact h

theorem packetDue_eq_none_iff : packetDue start before item = none ↔
    (item.packet.code ∈ [2, 4, 8] → item.target? = none) := by
  unfold packetDue
  split
  · rename_i hcode
    rw [Option.map_eq_none_iff]
    exact ⟨fun h _ => h, fun h => h hcode⟩
  · rename_i hcode
    exact ⟨fun _ h => absurd h hcode, fun _ => rfl⟩

/-- Where the session stands after the packets `before`. -/
structure FeedInbox.After (s : FeedInbox) (start : ℕ × String → Packet) (before : List FeedItem) :
    Prop where
  error : s.error = none
  partials : s.partials = latestPartial start before

/-- A packet that is not due is noted, or dropped. -/
theorem FeedInbox.After.take_of_none (h : s.After start before) (hcode : item.packet.code ≠ 50)
    (hdue : packetDue start before item = none) :
    (s.take bounds item).After start (before ++ [item]) ∧
      (s.take bounds item).passed = s.passed := by
  rw [packetDue_eq_none_iff] at hdue
  unfold FeedInbox.take
  rw [if_neg (not_not.2 h.error), if_neg hcode]
  dsimp only
  by_cases hpartial : item.packet.code ∈ [5, 6]
  · rw [if_pos hpartial]
    refine ⟨⟨h.error, ?_⟩, rfl⟩
    rw [latestPartial_concat_of_pos hpartial, ← h.partials]
  · rw [if_neg hpartial]
    have hsame : s.After start (before ++ [item]) :=
      ⟨h.error, by rw [latestPartial_concat_of_neg hpartial, h.partials]⟩
    split
    · exact ⟨hsame, rfl⟩
    · rename_i hknown
      rw [hdue (not_not.1 hknown)]
      exact ⟨hsame, rfl⟩

/-- A packet that is due is handed out. -/
theorem FeedInbox.After.take_of_some (h : s.After start before)
    (hdue : packetDue start before item = some (target, payload)) :
    s.take bounds item = s.onPacket bounds target payload ∧
      latestPartial start (before ++ [item]) = latestPartial start before := by
  unfold packetDue at hdue
  split at hdue
  swap
  · cases hdue
  rename_i hcode
  obtain ⟨found, htarget, hpayload⟩ := Option.map_eq_some_iff.1 hdue
  cases hpayload
  have hfifty : item.packet.code ≠ 50 := by
    intro heq
    rw [heq] at hcode
    exact absurd hcode (by decide)
  have hpartial : item.packet.code ∉ [5, 6] := by
    intro hmem
    rcases List.mem_pair.1 hmem with heq | heq <;>
    · rw [heq] at hcode
      exact absurd hcode (by decide)
  refine ⟨?_, latestPartial_concat_of_neg hpartial⟩
  unfold FeedInbox.take
  rw [if_neg (not_not.2 h.error), if_neg hfifty]
  dsimp only
  rw [if_neg hpartial, if_neg (not_not.2 hcode), htarget, h.partials]

theorem FeedInbox.onPacket_passed (bounds : FieldBounds) (s : FeedInbox) (target : FeedTarget)
    (payload : Packet) :
    (s.onPacket bounds target payload).passed = s.passed ++ [(target, payload)] ∧
      (s.onPacket bounds target payload).partials = s.partials := by
  unfold FeedInbox.onPacket
  dsimp only
  split
  · exact ⟨rfl, rfl⟩
  · exact ⟨rfl, rfl⟩

/-- It ends the loop if it is refused. -/
theorem FeedInbox.onPacket_error (h : s.error = none) :
    (s.onPacket bounds target payload).error = none ↔
      ¬ ∀ sequence, ∃ e, normalizeDhan bounds target payload sequence = .error e := by
  unfold FeedInbox.onPacket
  dsimp only
  split
  · rename_i e hrefused
    exact ⟨fun hnone => (nomatch hnone), fun hnot => absurd
      (fun m => ⟨e, normalizeDhan_sequence hrefused m⟩) hnot⟩
  · rename_i quote hok
    refine ⟨fun _ hrefused => ?_, fun _ => h⟩
    obtain ⟨e, he⟩ := hrefused (s.sequences target.instrumentId + 1)
    exact nomatch hok.symm.trans he

/-! ## The packets of a connection -/

theorem foldl_take_of_error (h : s.error ≠ none) :
    items.foldl (FeedInbox.take bounds) s = s := by
  induction items with
  | nil => rfl
  | cons item items ih =>
    rw [List.foldl_cons, FeedInbox.take, if_pos h]
    exact ih

theorem packetsDue_eq_nil_iff : packetsDue start before items = [] ↔
    ∀ item ∈ items, item.packet.code ∈ [2, 4, 8] → item.target? = none := by
  induction items generalizing before with
  | nil => exact ⟨fun _ => List.forall_mem_nil _, fun _ => rfl⟩
  | cons item items ih =>
    rw [packetsDue, List.append_eq_nil_iff, ih, Option.toList_eq_nil_iff, packetDue_eq_none_iff,
      List.forall_mem_cons]

theorem forall_split_cons {α : Type*} {x : α} {l : List α} {P : List α → α → List α → Prop} :
    (∀ l₁ y l₂, x :: l = l₁ ++ y :: l₂ → P l₁ y l₂) ↔
      P [] x l ∧ ∀ l₁ y l₂, l = l₁ ++ y :: l₂ → P (x :: l₁) y l₂ := by
  refine ⟨fun h => ⟨h [] x l rfl, fun l₁ y l₂ heq => h (x :: l₁) y l₂ (by rw [heq]; rfl)⟩, ?_⟩
  rintro ⟨hfirst, hrest⟩ l₁ y l₂ heq
  cases l₁ with
  | nil =>
    obtain ⟨rfl, rfl⟩ := List.cons.inj heq
    exact hfirst
  | cons z l₁ =>
    rw [List.cons_append] at heq
    obtain ⟨rfl, hl⟩ := List.cons.inj heq
    exact hrest l₁ y l₂ hl

/-- **The packets of a connection**, from where the session stands. -/
theorem foldl_take_passed (h : s.After start before)
    (hcodes : ∀ item ∈ items, item.packet.code ≠ 50) :
    (items.foldl (FeedInbox.take bounds) s).passed = s.passed ++ packetsDue start before items ↔
      ∀ l₁ item l₂, items = l₁ ++ item :: l₂ → item.Refused bounds start (before ++ l₁) →
        ∀ later ∈ l₂, later.packet.code ∈ [2, 4, 8] → later.target? = none := by
  induction items generalizing s before with
  | nil =>
    refine ⟨fun _ l₁ item l₂ heq => absurd heq (by simp), fun _ => ?_⟩
    rw [packetsDue, List.append_nil]
    rfl
  | cons item items ih =>
    obtain ⟨hcode, hcodes⟩ := List.forall_mem_cons.1 hcodes
    rw [forall_split_cons, packetsDue, List.foldl_cons, List.append_nil]
    cases hdue : packetDue start before item with
    | none =>
      obtain ⟨hafter, hpassed⟩ : (s.take bounds item).After start (before ++ [item]) ∧
          (s.take bounds item).passed = s.passed := h.take_of_none hcode hdue
      have hnot : ¬ item.Refused bounds start before := by
        rintro ⟨target, payload, hsome, -⟩
        exact nomatch hdue.symm.trans hsome
      have hrest := ih hafter hcodes
      simp only [List.append_assoc, List.singleton_append, hpassed] at hrest
      rw [Option.toList_none, List.nil_append, hrest]
      exact ⟨fun hall => ⟨fun hrefused => absurd hrefused hnot, hall⟩, fun hall => hall.2⟩
    | some handed =>
      obtain ⟨target, payload⟩ := handed
      obtain ⟨htake, hlatest⟩ : s.take bounds item = s.onPacket bounds target payload ∧
          latestPartial start (before ++ [item]) = latestPartial start before :=
        h.take_of_some hdue
      obtain ⟨hpassed, hpartials⟩ := s.onPacket_passed bounds target payload
      rw [htake, Option.toList_some, ← List.append_assoc, ← hpassed]
      by_cases hrefused : ∀ sequence, ∃ e, normalizeDhan bounds target payload sequence = .error e
      · -- the loop has ended, so nothing may be due
        have herror : (s.onPacket bounds target payload).error ≠ none := fun hnone =>
          (FeedInbox.onPacket_error h.error).1 hnone hrefused
        rw [foldl_take_of_error herror, List.self_eq_append_right, packetsDue_eq_nil_iff]
        refine ⟨fun hnone => ⟨fun _ => hnone, ?_⟩, fun hall => hall.1 ⟨_, _, hdue, hrefused⟩⟩
        rintro l₁ y l₂ rfl ⟨target', payload', hsome, -⟩
        have hy : y ∈ l₁ ++ y :: l₂ := List.mem_append_right _ List.mem_cons_self
        exact nomatch (packetDue_eq_none_iff.2 (hnone y hy)).symm.trans hsome
      · have hafter : (s.onPacket bounds target payload).After start (before ++ [item]) :=
          ⟨(FeedInbox.onPacket_error h.error).2 hrefused,
            by rw [hpartials, hlatest, h.partials]⟩
        have hrest := ih hafter hcodes
        simp only [List.append_assoc, List.singleton_append] at hrest
        rw [hrest]
        refine ⟨fun hall => ⟨fun hbad => ?_, hall⟩, fun hall => hall.2⟩
        obtain ⟨target', payload', hsome, hbad⟩ := hbad
        obtain ⟨rfl, rfl⟩ := Prod.mk.inj (Option.some.inj (hdue.symm.trans hsome))
        exact absurd hbad hrefused

/-- Messages that decode are taken packet by packet. -/
theorem foldl_receive {receipts : List FeedReceipt}
    (hdecode : ∀ receipt ∈ receipts, ∃ packets, decodeDhanFrames receipt.message = .ok packets) :
    receipts.foldl (FeedInbox.receive bounds) s =
      (packetsOf receipts).foldl (FeedInbox.take bounds) s := by
  induction receipts generalizing s with
  | nil => rfl
  | cons receipt receipts ih =>
    obtain ⟨⟨packets, hpackets⟩, hdecode⟩ := List.forall_mem_cons.1 hdecode
    have hone : s.receive bounds receipt =
        (packets.map (FeedItem.mk receipt.active)).foldl (FeedInbox.take bounds) s := by
      unfold FeedInbox.receive
      split
      · rename_i herror
        exact (foldl_take_of_error herror).symm
      · rw [hpackets]
    have hsplit : packetsOf (receipt :: receipts) =
        packets.map (FeedItem.mk receipt.active) ++ packetsOf receipts := by
      unfold packetsOf
      rw [List.flatMap_cons, hpackets]
      rfl
    rw [List.foldl_cons, hone, ih hdecode, hsplit, List.foldl_append]

end Take

/-- **Bad packets.**  For messages that decode, without disconnect packets, received by a
session whose loop runs: `on_packet` is called for every packet with code 2, 4 or 8 of a
subscribed key, in order and over the latest open interest and previous close of its key,
exactly when none of them comes after one that normalisation refuses. -/
theorem packets_passed_iff (bounds : FieldBounds) {s : FeedInbox} (herror : s.error = none)
    {receipts : List FeedReceipt}
    (hdecode : ∀ receipt ∈ receipts, ∃ packets, decodeDhanFrames receipt.message = .ok packets)
    (hcodes : ∀ item ∈ packetsOf receipts, item.packet.code ≠ 50) :
    (receipts.foldl (FeedInbox.receive bounds) s).passed =
        s.passed ++ packetsDue s.partials [] (packetsOf receipts) ↔
      ∀ before item after, packetsOf receipts = before ++ item :: after →
        item.Refused bounds s.partials before →
          ∀ later ∈ after, later.packet.code ∈ [2, 4, 8] → later.target? = none := by
  rw [foldl_receive hdecode]
  have hstart : s.After s.partials [] := ⟨herror, rfl⟩
  exact foldl_take_passed hstart hcodes

/-! ### Two tickers in a message -/

/-- The bounds on single floats: neither a NaN nor a negative number passes. -/
def singleBounds : FieldBounds where
  isPositive x := 0 < x.bits.val ∧ x.bits.val ≤ 0x7F800000
  isNonneg x := x.bits.val ≤ 0x7F800000 ∨ x.bits.val = 0x80000000

def sbinTarget : FeedTarget where
  instrumentId := 1
  exchangeSegment := "NSE_EQ"
  exchangeCode := 1
  securityId := "1333"
  exchange := "NSE"
  segment := "EQ"
  tradingSymbol := "SBIN-EQ"

/-- A ticker of the security. -/
def sbinTicker (ltp : Single) : FeedFrame where
  exchangeSegment := ⟨1, by decide⟩
  securityId := 1333
  body := .ticker ltp 1700000000
  fits := by
    show 16 + 0 < 256 ^ 2
    decide

/-- A message with these tickers. -/
def sbinMessage (prices : List Single) : FeedReceipt where
  active := [sbinTarget]
  message := (prices.map sbinTicker).flatMap FeedFrame.bytes

theorem decode_sbinMessage (prices : List Single) : decodeDhanFrames (sbinMessage prices).message =
    .ok ((prices.map sbinTicker).map FeedFrame.packet) :=
  decodeFrom_frames (prices.map sbinTicker) []

theorem sbinMessage_decodes (prices : List Single) :
    ∀ receipt ∈ [sbinMessage prices],
      ∃ packets, decodeDhanFrames receipt.message = .ok packets := by
  intro receipt hreceipt
  rw [List.mem_singleton.1 hreceipt]
  exact ⟨_, decode_sbinMessage prices⟩

theorem packetsOf_sbinMessage (prices : List Single) : packetsOf [sbinMessage prices] =
    prices.map fun ltp => ⟨[sbinTarget], (sbinTicker ltp).packet⟩ := by
  unfold packetsOf
  rw [List.flatMap_singleton, decode_sbinMessage]
  exact (congrArg (List.map _) List.map_map).trans List.map_map

theorem sbinMessage_codes (prices : List Single) :
    ∀ item ∈ packetsOf [sbinMessage prices], item.packet.code ≠ 50 := by
  rw [packetsOf_sbinMessage]
  intro item hitem
  obtain ⟨ltp, -, rfl⟩ := List.mem_map.1 hitem
  show (2 : ℕ) ≠ 50
  decide

/-- The ticker after one at zero is lost. -/
theorem packet_after_refused : ¬ ∀ (bounds : FieldBounds) (s : FeedInbox), s.error = none →
    ∀ receipts : List FeedReceipt,
      (∀ receipt ∈ receipts, ∃ packets, decodeDhanFrames receipt.message = .ok packets) →
      (∀ item ∈ packetsOf receipts, item.packet.code ≠ 50) →
        (receipts.foldl (FeedInbox.receive bounds) s).passed =
          s.passed ++ packetsDue s.partials [] (packetsOf receipts) := by
  intro h
  have hpassed := h singleBounds {} rfl [sbinMessage [⟨0⟩, ⟨0x444B1000⟩]] (sbinMessage_decodes _)
    (sbinMessage_codes _)
  rw [foldl_receive (sbinMessage_decodes _), packetsOf_sbinMessage] at hpassed
  exact absurd (congrArg List.length hpassed) (by decide +kernel)

/-- The other way round both are handed out. -/
theorem packets_passed_iff_refusedLast :
    ([sbinMessage [⟨0x444B1000⟩, ⟨0⟩]].foldl (FeedInbox.receive singleBounds) {}).passed =
      packetsDue (fun _ => .empty) [] (packetsOf [sbinMessage [⟨0x444B1000⟩, ⟨0⟩]]) := by
  refine (packets_passed_iff singleBounds (s := {}) rfl (sbinMessage_decodes _)
    (sbinMessage_codes _)).2 ?_
  rw [packetsOf_sbinMessage, List.map_cons, List.map_singleton, forall_split_cons]
  refine ⟨?_, ?_⟩
  · rintro ⟨target, payload, hdue, hrefused⟩
    obtain ⟨e, he⟩ := hrefused 1
    cases hdue
    cases he
  · rintro (_ | ⟨_, _ | _⟩) item after heq
    · obtain ⟨-, rfl⟩ := List.cons.inj heq
      exact fun _ => List.forall_mem_nil _
    · cases heq
    · cases heq

end GnkAlgo
