import GnkAlgo.Lib.Packing

/-!
# Frames of the Dhan feed

The binary packets of `backend/app/market/dhan.py`: their layouts, `_depth`,
`_decode_frame` and `decode_dhan_frames`.

* `FeedFrame` — a packet as the broker packs it;
* `decodeDhanFrames_frames` — decoding inverts packing.
-/

namespace GnkAlgo

open Packing

/-! ## Layouts -/

namespace FeedLayout

/-- The format characters of `struct`. -/
abbrev B : Code := .word 1
abbrev H : Code := .word 2
abbrev I : Code := .word 4
abbrev f : Code := .single

def header : Layout := [B, H, B, I]

def ticker : Layout := [B, H, B, I, f, I]

def quote : Layout := [B, H, B, I, f, H, I, f, I, I, I, f, f, f, f]

def openInterest : Layout := [B, H, B, I, I]

def full : Layout := [B, H, B, I, f, H, I, f, I, I, I, I, I, I, f, f, f, f, .raw 100]

def depthLevel : Layout := [I, I, H, H, f, f]

def disconnect : Layout := [B, H, B, I, H]

end FeedLayout

/-- The ticker of security 1333 at 812.25. -/
example : FeedLayout.ticker.pack (2, 16, 1, 1333, ⟨0x444B1000⟩, 1700000000, ()) =
    [2, 16, 0, 1, 53, 5, 0, 0, 0, 16, 75, 68, 0, 241, 83, 101] := by decide

/-! ## Packets -/

structure DepthLevel where
  bidQuantity : ℕ
  askQuantity : ℕ
  bidOrders : ℕ
  askOrders : ℕ
  bid : Single
  ask : Single
  deriving DecidableEq, Repr

/-- The keys of a packet's dictionary. -/
inductive PacketKey
  | responseCode
  | messageLength
  | exchangeSegment
  | securityId
  | LTP
  | LTT
  | LTQ
  | averagePrice
  | volume
  | totalSellQuantity
  | totalBuyQuantity
  | opening
  | close
  | high
  | low
  | OI
  | previousOpenInterest
  | oiDayHigh
  | oiDayLow
  | depth
  | bid
  | ask
  | disconnectCode
  deriving DecidableEq, Repr

@[reducible] def PacketKey.Value : PacketKey → Type
  | .securityId => String
  | .LTP | .averagePrice | .opening | .close | .high | .low | .bid | .ask => Single
  | .depth => List DepthLevel
  | _ => ℕ

/-- A packet: a dictionary. -/
def Packet := (key : PacketKey) → Option key.Value

def Packet.empty : Packet := fun _ => none

def Packet.update (p : Packet) (entries : List (Sigma PacketKey.Value)) : Packet :=
  entries.foldl (fun p entry => Function.update p entry.1 (some entry.2)) p

/-- What decoding raises: a `DhanProtocolError`, a `struct.error` or an `IndexError`. -/
inductive FeedError
  | protocol (message : String)
  | struct
  | index
  deriving DecidableEq, Repr

/-! ## Decoding -/

/-- `unpack_from`. -/
def unpackFrom (l : Layout) (data : List UInt8) (offset : ℕ) : Except FeedError l.Values :=
  match l.unpackFrom data offset with
  | some values => .ok values
  | none => .error .struct

/-- `range(0, stop, step)`. -/
def stepRange (stop step : ℕ) : List ℕ :=
  (List.range ((stop + step - 1) / step)).map (· * step)

/-- `_depth`. -/
def depthOf (raw : List UInt8) : Except FeedError (List DepthLevel) :=
  (stepRange raw.length FeedLayout.depthLevel.size).mapM fun offset => do
    let (bidQty, askQty, bidOrders, askOrders, bid, ask, _) ←
      unpackFrom FeedLayout.depthLevel raw offset
    return ⟨bidQty.val, askQty.val, bidOrders.val, askOrders.val, bid, ask⟩

/-- The fields of a branch of `_decode_frame`, from a frame that is long enough. -/
def packetValues (l : Layout) (name : String) (frame : List UInt8) : Except FeedError l.Values :=
  if frame.length < l.size then .error (.protocol s!"Truncated Dhan {name} packet")
  else unpackFrom l frame 0

open PacketKey in
/-- The branches of `_decode_frame`. -/
def decodeBody (frame : List UInt8) (code : ℕ) (base : Packet) : Except FeedError Packet :=
  if code = 2 then do
    let values ← packetValues FeedLayout.ticker "ticker" frame
    return base.update [⟨LTP, values.get 4⟩, ⟨LTT, (values.get 5).val⟩]
  else if code = 4 then do
    let values ← packetValues FeedLayout.quote "quote" frame
    return base.update [⟨LTP, values.get 4⟩, ⟨LTQ, (values.get 5).val⟩, ⟨LTT, (values.get 6).val⟩,
      ⟨averagePrice, values.get 7⟩, ⟨volume, (values.get 8).val⟩,
      ⟨totalSellQuantity, (values.get 9).val⟩, ⟨totalBuyQuantity, (values.get 10).val⟩,
      ⟨opening, values.get 11⟩, ⟨close, values.get 12⟩, ⟨high, values.get 13⟩,
      ⟨low, values.get 14⟩]
  else if code = 5 then do
    let values ← packetValues FeedLayout.openInterest "open-interest" frame
    return base.update [⟨OI, (values.get 4).val⟩]
  else if code = 6 then do
    let values ← packetValues FeedLayout.ticker "previous-close" frame
    return base.update [⟨close, values.get 4⟩, ⟨previousOpenInterest, (values.get 5).val⟩]
  else if code = 8 then do
    let values ← packetValues FeedLayout.full "full" frame
    let levels ← depthOf (values.get 18).toList
    match levels.head? with
    | none => throw .index
    | some best =>
      return base.update [⟨LTP, values.get 4⟩, ⟨LTQ, (values.get 5).val⟩,
        ⟨LTT, (values.get 6).val⟩, ⟨averagePrice, values.get 7⟩, ⟨volume, (values.get 8).val⟩,
        ⟨totalSellQuantity, (values.get 9).val⟩, ⟨totalBuyQuantity, (values.get 10).val⟩,
        ⟨OI, (values.get 11).val⟩, ⟨oiDayHigh, (values.get 12).val⟩,
        ⟨oiDayLow, (values.get 13).val⟩, ⟨opening, values.get 14⟩, ⟨close, values.get 15⟩,
        ⟨high, values.get 16⟩, ⟨low, values.get 17⟩, ⟨depth, levels⟩, ⟨bid, best.bid⟩,
        ⟨ask, best.ask⟩]
  else if code = 50 then do
    let values ← packetValues FeedLayout.disconnect "disconnect" frame
    return base.update [⟨disconnectCode, (values.get 4).val⟩]
  else return base

open PacketKey in
/-- `_decode_frame`. -/
def decodeFrame (frame : List UInt8) : Except FeedError Packet := do
  let (code, length, exchange, security, _) ← unpackFrom FeedLayout.header frame 0
  decodeBody frame code.val (Packet.empty.update [⟨responseCode, code.val⟩,
    ⟨messageLength, length.val⟩, ⟨exchangeSegment, exchange.val⟩,
    ⟨securityId, toString security.val⟩])

/-- `data[start:stop]`. -/
def slice (data : List UInt8) (start stop : ℕ) : List UInt8 := (data.take stop).drop start

/-- The loop of `decode_dhan_frames`. -/
def decodeFrom (data : List UInt8) (offset : ℕ) : Except FeedError (List Packet) := do
  if offset < data.length then
    if data.length - offset < FeedLayout.header.size then
      throw (.protocol "Truncated Dhan packet header")
    let (_, length, _, _, _) ← unpackFrom FeedLayout.header data offset
    if _ : length.val < FeedLayout.header.size then
      throw (.protocol s!"Invalid Dhan packet length: {length.val}")
    else if offset + length.val > data.length then
      throw (.protocol "Dhan packet length exceeds WebSocket message")
    else
      let packet ← decodeFrame (slice data offset (offset + length.val))
      let packets ← decodeFrom data (offset + length.val)
      return packet :: packets
  else return []
termination_by data.length - offset
decreasing_by
  have hpos : 0 < FeedLayout.header.size := by decide
  omega

/-- `decode_dhan_frames`. -/
def decodeDhanFrames (data : List UInt8) : Except FeedError (List Packet) := decodeFrom data 0

/-! ## Packing -/

/-- A level of depth as it is packed. -/
structure PackedLevel where
  bidQuantity : Word 4
  askQuantity : Word 4
  bidOrders : Word 2
  askOrders : Word 2
  bid : Single
  ask : Single

def PackedLevel.values (l : PackedLevel) : FeedLayout.depthLevel.Values :=
  (l.bidQuantity, l.askQuantity, l.bidOrders, l.askOrders, l.bid, l.ask, ())

def PackedLevel.level (l : PackedLevel) : DepthLevel where
  bidQuantity := l.bidQuantity.val
  askQuantity := l.askQuantity.val
  bidOrders := l.bidOrders.val
  askOrders := l.askOrders.val
  bid := l.bid
  ask := l.ask

/-- What quote packets carry. -/
structure QuoteFields where
  ltp : Single
  ltq : Word 2
  ltt : Word 4
  averagePrice : Single
  volume : Word 4
  totalSellQuantity : Word 4
  totalBuyQuantity : Word 4
  opening : Single
  close : Single
  high : Single
  low : Single

/-- What full packets carry. -/
structure FullFields extends QuoteFields where
  oi : Word 4
  oiDayHigh : Word 4
  oiDayLow : Word 4
  depth : List.Vector PackedLevel 5

inductive FeedBody
  | ticker (ltp : Single) (ltt : Word 4)
  | quote (fields : QuoteFields)
  | openInterest (oi : Word 4)
  | previousClose (close : Single) (previousOpenInterest : Word 4)
  | full (fields : FullFields)
  | disconnect (disconnectCode : Word 2)

/-- The response code. -/
def FeedBody.code : FeedBody → Word 1
  | .ticker .. => 2
  | .quote .. => 4
  | .openInterest .. => 5
  | .previousClose .. => 6
  | .full .. => 8
  | .disconnect .. => 50

def FeedBody.layout : FeedBody → Layout
  | .ticker .. | .previousClose .. => FeedLayout.ticker
  | .quote .. => FeedLayout.quote
  | .openInterest .. => FeedLayout.openInterest
  | .full .. => FeedLayout.full
  | .disconnect .. => FeedLayout.disconnect

/-- The hundred bytes of five levels. -/
def packDepth (depth : List.Vector PackedLevel 5) : List.Vector UInt8 100 :=
  ⟨(depth.toList.map PackedLevel.values).flatMap FeedLayout.depthLevel.pack, by
    rw [List.length_flatMap, List.map_map]
    have hsize : ∀ l : PackedLevel,
        ((fun v => (FeedLayout.depthLevel.pack v).length) ∘ PackedLevel.values) l = 20 :=
      fun l => Layout.length_pack ..
    rw [List.map_congr_left fun l _ => hsize l, List.map_const', List.sum_replicate,
      List.Vector.toList_length]
    rfl⟩

/-- The body in the positions of its layout. -/
def FeedBody.values (length : Word 2) (exchangeSegment : Word 1) (securityId : Word 4) :
    (b : FeedBody) → b.layout.Values
  | .ticker ltp ltt => (2, length, exchangeSegment, securityId, ltp, ltt, ())
  | .quote q => (4, length, exchangeSegment, securityId, q.ltp, q.ltq, q.ltt, q.averagePrice,
      q.volume, q.totalSellQuantity, q.totalBuyQuantity, q.opening, q.close, q.high, q.low, ())
  | .openInterest oi => (5, length, exchangeSegment, securityId, oi, ())
  | .previousClose close previousOpenInterest =>
    (6, length, exchangeSegment, securityId, close, previousOpenInterest, ())
  | .full q => (8, length, exchangeSegment, securityId, q.ltp, q.ltq, q.ltt, q.averagePrice,
      q.volume, q.totalSellQuantity, q.totalBuyQuantity, q.oi, q.oiDayHigh, q.oiDayLow, q.opening,
      q.close, q.high, q.low, packDepth q.depth, ())
  | .disconnect disconnectCode => (50, length, exchangeSegment, securityId, disconnectCode, ())

/-- A packet on the wire, with bytes after its layout that its length counts. -/
structure FeedFrame where
  exchangeSegment : Word 1
  securityId : Word 4
  body : FeedBody
  extra : List UInt8 := []
  fits : body.layout.size + extra.length < 256 ^ 2 := by decide

/-- The length in the header. -/
def FeedFrame.length (p : FeedFrame) : Word 2 := ⟨p.body.layout.size + p.extra.length, p.fits⟩

def FeedFrame.bytes (p : FeedFrame) : List UInt8 :=
  p.body.layout.pack (p.body.values p.length p.exchangeSegment p.securityId) ++ p.extra

/-- The field of a name. -/
def FeedBody.field : FeedBody → (key : PacketKey) → Option key.Value
  | .ticker ltp _, .LTP => some ltp
  | .ticker _ ltt, .LTT => some ltt.val
  | .quote q, .LTP => some q.ltp
  | .quote q, .LTQ => some q.ltq.val
  | .quote q, .LTT => some q.ltt.val
  | .quote q, .averagePrice => some q.averagePrice
  | .quote q, .volume => some q.volume.val
  | .quote q, .totalSellQuantity => some q.totalSellQuantity.val
  | .quote q, .totalBuyQuantity => some q.totalBuyQuantity.val
  | .quote q, .opening => some q.opening
  | .quote q, .close => some q.close
  | .quote q, .high => some q.high
  | .quote q, .low => some q.low
  | .openInterest oi, .OI => some oi.val
  | .previousClose close _, .close => some close
  | .previousClose _ oi, .previousOpenInterest => some oi.val
  | .full q, .LTP => some q.ltp
  | .full q, .LTQ => some q.ltq.val
  | .full q, .LTT => some q.ltt.val
  | .full q, .averagePrice => some q.averagePrice
  | .full q, .volume => some q.volume.val
  | .full q, .totalSellQuantity => some q.totalSellQuantity.val
  | .full q, .totalBuyQuantity => some q.totalBuyQuantity.val
  | .full q, .OI => some q.oi.val
  | .full q, .oiDayHigh => some q.oiDayHigh.val
  | .full q, .oiDayLow => some q.oiDayLow.val
  | .full q, .opening => some q.opening
  | .full q, .close => some q.close
  | .full q, .high => some q.high
  | .full q, .low => some q.low
  | .full q, .depth => some (q.depth.toList.map PackedLevel.level)
  | .full q, .bid => some q.depth.head.bid
  | .full q, .ask => some q.depth.head.ask
  | .disconnect disconnectCode, .disconnectCode => some disconnectCode.val
  | _, _ => none

/-- The packet, name by name. -/
def FeedFrame.packet (p : FeedFrame) : Packet
  | .responseCode => some p.body.code.val
  | .messageLength => some p.length.val
  | .exchangeSegment => some p.exchangeSegment.val
  | .securityId => some (toString p.securityId.val)
  | key => p.body.field key

/-! ## Decoding inverts packing -/

@[simp] theorem FeedFrame.length_bytes (p : FeedFrame) : p.bytes.length = p.length.val := by
  rw [bytes, List.length_append, Layout.length_pack]
  rfl

/-- Every packet begins with a header. -/
theorem FeedFrame.bytes_eq (p : FeedFrame) : ∃ rest, p.bytes =
    FeedLayout.header.pack (p.body.code, p.length, p.exchangeSegment, p.securityId, ()) ++ rest := by
  unfold bytes
  generalize p.length = length
  obtain ⟨exchangeSegment, securityId, body, extra, -⟩ := p
  cases body <;> exact ⟨_, by
    simp only [FeedBody.layout, FeedBody.values, FeedBody.code, FeedLayout.header,
      FeedLayout.ticker, FeedLayout.quote, FeedLayout.openInterest, FeedLayout.full,
      FeedLayout.disconnect, Layout.pack, List.append_assoc, List.nil_append]
    rfl⟩

/-- The header of a packet in a message. -/
theorem FeedFrame.unpackFrom_header (p : FeedFrame) {data before after : List UInt8}
    (h : data = before ++ (p.bytes ++ after)) :
    unpackFrom FeedLayout.header data before.length =
      .ok (p.body.code, p.length, p.exchangeSegment, p.securityId, ()) := by
  obtain ⟨rest, hrest⟩ := p.bytes_eq
  have hread : FeedLayout.header.read (data.drop before.length) =
      some (p.body.code, p.length, p.exchangeSegment, p.securityId, ()) := by
    rw [h, List.drop_left, hrest, List.append_assoc]
    exact Layout.read_pack ..
  rw [unpackFrom, Layout.unpackFrom, hread]

/-- The fields of a packet by itself. -/
theorem FeedFrame.unpackFrom_layout (p : FeedFrame) :
    unpackFrom p.body.layout p.bytes 0 =
      .ok (p.body.values p.length p.exchangeSegment p.securityId) := by
  rw [unpackFrom, Layout.unpackFrom, List.drop_zero, bytes, Layout.read_pack]

theorem unpackFrom_of_some {l : Layout} {data : List UInt8} {offset : ℕ} {values : l.Values}
    (h : l.unpackFrom data offset = some values) : unpackFrom l data offset = .ok values := by
  rw [unpackFrom, h]

/-- A loop over the positions of a list. -/
theorem mapM_range {ε β : Type} {f : ℕ → Except ε β} {l : List β}
    (h : ∀ i (hi : i < l.length), f i = .ok l[i]) : (List.range l.length).mapM f = .ok l := by
  induction l using List.reverseRecOn with
  | nil => rfl
  | append_singleton l x ih =>
    have hl : (List.range l.length).mapM f = .ok l := ih fun i hi => by
      rw [h i (by rw [List.length_append]; omega), List.getElem_append_left hi]
    have hx : f l.length = .ok x := by
      rw [h l.length (by simp)]
      simp
    rw [List.length_append, List.length_singleton, List.range_succ, List.mapM_append, hl,
      List.mapM_cons, hx]
    rfl

/-- **Five levels.** -/
theorem depthOf_packDepth (depth : List.Vector PackedLevel 5) :
    depthOf (packDepth depth).toList = .ok (depth.toList.map PackedLevel.level) := by
  have hcount : stepRange (packDepth depth).toList.length FeedLayout.depthLevel.size =
      (List.range (depth.toList.map PackedLevel.level).length).map
        (· * FeedLayout.depthLevel.size) := by
    rw [List.length_map, List.Vector.toList_length, List.Vector.toList_length]
    rfl
  rw [depthOf, hcount, List.mapM_map]
  refine mapM_range fun i hi => ?_
  rw [List.length_map] at hi
  have hread := Layout.unpackFrom_flatMap FeedLayout.depthLevel
    (depth.toList.map PackedLevel.values) i (by rwa [List.length_map]) []
  rw [List.append_nil, List.getElem_map] at hread
  have hthis : unpackFrom FeedLayout.depthLevel (packDepth depth).toList
      (i * FeedLayout.depthLevel.size) = .ok (depth.toList[i]).values := unpackFrom_of_some hread
  rw [Function.comp_apply, hthis, List.getElem_map]
  rfl

theorem bind_of_ok {ε α β : Type} {x : Except ε α} {a : α} (h : x = .ok a) (f : α → Except ε β) :
    x >>= f = f a := by
  rw [h]
  rfl

/-- The branch of a code. -/
theorem decodeBody_field {b : FeedBody} {frame : List UInt8} {length : Word 2}
    {exchangeSegment : Word 1} {securityId : Word 4}
    (h : ∀ name, packetValues b.layout name frame =
      .ok (b.values length exchangeSegment securityId)) (base : Packet) :
    decodeBody frame b.code.val base = .ok fun key => (b.field key).or (base key) := by
  cases b with
  | ticker ltp ltt =>
    have hvalues : packetValues FeedLayout.ticker "ticker" frame = _ := h _
    rw [show (FeedBody.ticker ltp ltt).code.val = 2 from rfl, decodeBody, if_pos rfl, hvalues]
    exact congrArg Except.ok (funext fun key => by cases key <;> rfl)
  | quote q =>
    have hvalues : packetValues FeedLayout.quote "quote" frame = _ := h _
    rw [show (FeedBody.quote q).code.val = 4 from rfl, decodeBody, if_neg (by decide), if_pos rfl,
      hvalues]
    exact congrArg Except.ok (funext fun key => by cases key <;> rfl)
  | openInterest oi =>
    have hvalues : packetValues FeedLayout.openInterest "open-interest" frame = _ := h _
    rw [show (FeedBody.openInterest oi).code.val = 5 from rfl, decodeBody, if_neg (by decide),
      if_neg (by decide), if_pos rfl, hvalues]
    exact congrArg Except.ok (funext fun key => by cases key <;> rfl)
  | previousClose close oi =>
    have hvalues : packetValues FeedLayout.ticker "previous-close" frame = _ := h _
    rw [show (FeedBody.previousClose close oi).code.val = 6 from rfl, decodeBody,
      if_neg (by decide), if_neg (by decide), if_neg (by decide), if_pos rfl, hvalues]
    exact congrArg Except.ok (funext fun key => by cases key <;> rfl)
  | full q =>
    have hvalues : packetValues FeedLayout.full "full" frame = _ := h _
    have hdepth := depthOf_packDepth q.depth
    rw [show (FeedBody.full q).code.val = 8 from rfl, decodeBody, if_neg (by decide),
      if_neg (by decide), if_neg (by decide), if_neg (by decide), if_pos rfl, bind_of_ok hvalues]
    obtain ⟨q, oi, oiDayHigh, oiDayLow, ⟨_ | ⟨best, rest⟩, hcount⟩⟩ := q
    · cases hcount
    -- the depth is read first, its best level after that
    refine (bind_of_ok hdepth _).trans ?_
    exact congrArg Except.ok (funext fun key => by cases key <;> rfl)
  | disconnect disconnectCode =>
    have hvalues : packetValues FeedLayout.disconnect "disconnect" frame = _ := h _
    rw [show (FeedBody.disconnect disconnectCode).code.val = 50 from rfl, decodeBody,
      if_neg (by decide), if_neg (by decide), if_neg (by decide), if_neg (by decide),
      if_neg (by decide), if_pos rfl, hvalues]
    exact congrArg Except.ok (funext fun key => by cases key <;> rfl)

/-- **One frame.** -/
theorem decodeFrame_bytes (p : FeedFrame) : decodeFrame p.bytes = .ok p.packet := by
  have hwhole : p.bytes = [] ++ (p.bytes ++ []) := (List.append_nil _).symm
  have hheader : unpackFrom FeedLayout.header p.bytes 0 = _ := p.unpackFrom_header hwhole
  have hvalues : ∀ name, packetValues p.body.layout name p.bytes =
      .ok (p.body.values p.length p.exchangeSegment p.securityId) := fun name => by
    rw [packetValues, if_neg, p.unpackFrom_layout]
    rw [p.length_bytes]
    exact Nat.not_lt.2 (Nat.le_add_right ..)
  unfold decodeFrame
  rw [hheader]
  refine (decodeBody_field hvalues _).trans (congrArg Except.ok (funext fun key => ?_))
  obtain ⟨exchangeSegment, securityId, body, extra, fits⟩ := p
  cases key <;> cases body <;> rfl

/-- A packet after others in a message. -/
theorem decodeFrom_bytes (p : FeedFrame) {data before after : List UInt8}
    (h : data = before ++ (p.bytes ++ after)) : decodeFrom data before.length =
      (decodeFrom data (before.length + p.bytes.length)).map (p.packet :: ·) := by
  have hlength : data.length = before.length + (p.length.val + after.length) := by
    rw [h, List.length_append, List.length_append, p.length_bytes]
  have hheader : FeedLayout.header.size ≤ p.length.val := by
    have hbody : FeedLayout.header.size ≤ p.body.layout.size := by
      cases p.body <;> exact Nat.le_of_ble_eq_true rfl
    exact hbody.trans (Nat.le_add_right ..)
  have hpos : 0 < FeedLayout.header.size := by decide
  have hslice : slice data before.length (before.length + p.length.val) = p.bytes := by
    rw [slice, h, ← p.length_bytes, ← List.append_assoc, ← List.length_append, List.take_left,
      List.drop_left]
  rw [decodeFrom, if_pos (by omega), if_neg (by omega), bind_of_ok (p.unpackFrom_header h)]
  dsimp only
  rw [dif_neg (by omega), if_neg (by omega), hslice, bind_of_ok (decodeFrame_bytes p),
    p.length_bytes]
  cases decodeFrom data (before.length + p.length.val) <;> rfl

/-- Packets behind others that are decoded already. -/
theorem decodeFrom_frames (packets : List FeedFrame) (before : List UInt8) :
    decodeFrom (before ++ packets.flatMap FeedFrame.bytes) before.length =
      .ok (packets.map FeedFrame.packet) := by
  induction packets generalizing before with
  | nil =>
    rw [decodeFrom, if_neg (by simp)]
    rfl
  | cons p packets ih =>
    have hrest := ih (before ++ p.bytes)
    rw [List.append_assoc, List.length_append] at hrest
    rw [List.flatMap_cons, decodeFrom_bytes p rfl, hrest]
    rfl

/-- **Decoding inverts packing.** -/
theorem decodeDhanFrames_frames (packets : List FeedFrame) :
    decodeDhanFrames (packets.flatMap FeedFrame.bytes) = .ok (packets.map FeedFrame.packet) :=
  decodeFrom_frames packets []

end GnkAlgo
