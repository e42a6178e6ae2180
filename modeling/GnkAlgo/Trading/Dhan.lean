import GnkAlgo.Database

/-!
# The Dhan order adapter

`backend/app/trading/dhan.py`: the status map, what `_request` makes of the
outcome of one HTTP request, and the three order calls.  The outcome is an
argument, so that a theorem over all outcomes covers whatever the network and
the broker do.
-/

namespace GnkAlgo

/-- `DhanOrderError`. -/
structure DhanOrderError where
  code : String
  ambiguous : Bool := false
  deriving DecidableEq, Repr

/-! ## Order statuses -/

/-- `DHAN_STATUS_MAP`. -/
def dhanStatusMap : List (String × OrderStatus) :=
  [("TRANSIT", .pending), ("PENDING", .open), ("PART_TRADED", .partiallyFilled),
    ("TRADED", .filled), ("CANCELLED", .canceled), ("REJECTED", .rejected), ("EXPIRED", .expired)]

/-- `str.upper`, as far as the keys of `DHAN_STATUS_MAP` can tell: next to the
ASCII letters the dotless i and the long s have an ASCII upper case. -/
def upper (text : String) : String :=
  text.map fun c => if c = 'ı' then 'I' else if c = 'ſ' then 'S' else c.toUpper

/-- `map_dhan_status`. -/
def mapDhanStatus (value : Option String) : OrderStatus :=
  (dhanStatusMap.lookup (upper (value.getD ""))).getD .unknown

/-! ## Requests -/

/-- The method of an order request. -/
inductive HttpMethod
  | post
  | put
  | delete
  deriving DecidableEq, Repr

/-- The fields of a JSON object that order handling reads, as `str` gives them. -/
structure OrderResponse where
  orderId : Option String := none
  orderStatus : Option String := none
  errorCode : Option String := none
  errorType : Option String := none
  deriving DecidableEq, Repr

/-- What a response carries: nothing, something that is not JSON, an object, or
JSON that the code stumbles over. -/
inductive ResponseBody
  | empty
  | invalid
  | object (response : OrderResponse)
  | other
  deriving DecidableEq, Repr

/-- The outcome of one HTTP request: a timeout or a network error, any other
exception, or a response.  `sent` says whether the request had left: no connection
may come about, and a body may have no JSON. -/
inductive HttpOutcome
  | network (sent : Bool)
  | exception (sent : Bool)
  | response (statusCode : ℕ) (body : ResponseBody)
  deriving DecidableEq, Repr

/-- The request has left for the broker. -/
def HttpOutcome.sent : HttpOutcome → Bool
  | .network sent | .exception sent => sent
  | .response _ _ => true

/-- What an adapter call returns or raises; `escaped` is any exception that is
not a `DhanOrderError`. -/
inductive AdapterResult
  | ok (response : OrderResponse)
  | error (e : DhanOrderError)
  | escaped
  deriving DecidableEq, Repr

/-- Python's truth of an optional text: an empty one counts as missing. -/
def orMissing (text : Option String) : Option String := text.filter (· ≠ "")

/-- `_request`. -/
def dhanRequest (method : HttpMethod) : HttpOutcome → AdapterResult
  | .network _ => .error ⟨"DHAN_ORDER_RESULT_UNKNOWN", true⟩
  | .exception _ => .escaped
  | .response statusCode body =>
    if 400 ≤ statusCode then
      match body with
      | .object payload =>
        .error ⟨((orMissing payload.errorCode).or (orMissing payload.errorType)).getD
          "DHAN_ORDER_REJECTED", false⟩
      | .other => .escaped
      | .empty | .invalid => .error ⟨"DHAN_ORDER_REJECTED", false⟩
    else if statusCode = 204 then .ok {}
    else
      match body with
      | .empty => .ok {}
      | .invalid => .error ⟨"DHAN_INVALID_RESPONSE", method = .post⟩
      | .object payload => .ok payload
      | .other => .escaped

/-! ## The order calls -/

/-- `DhanOrderAdapter.place`.  `subscribed` says that `dhan_subscription` finds
the instrument; otherwise it raises before anything is sent. -/
def dhanPlace (subscribed : Bool) (outcome : HttpOutcome) : AdapterResult :=
  if subscribed then dhanRequest .post outcome else .escaped

/-- `DhanOrderAdapter.modify`. -/
def dhanModify (order : TradingOrder) (outcome : HttpOutcome) : AdapterResult :=
  match orMissing order.brokerOrderId with
  | none => .error ⟨"DHAN_ORDER_ID_MISSING", false⟩
  | some _ => dhanRequest .put outcome

/-- `DhanOrderAdapter.cancel`. -/
def dhanCancel (order : TradingOrder) (outcome : HttpOutcome) : AdapterResult :=
  match orMissing order.brokerOrderId with
  | none => .error ⟨"DHAN_ORDER_ID_MISSING", false⟩
  | some _ => dhanRequest .delete outcome

end GnkAlgo
