import GnkAlgo.Lib.Upserts
import GnkAlgo.Models

/-!
# The Dhan instrument master

`backend/app/market/instruments.py`: the rows of Dhan's file are read one by one
and each is put on an instrument of the table, found by the segment and the
security id of its DHAN token, or by the bare security id older tokens consist of;
a row that finds none makes one.

* `parseDhanInstrument` — a row of the file;
* `importDhanInstruments` — the file;
* `freeSymbol_free` — the search for a symbol that is not taken ends.
-/

namespace GnkAlgo

open Upserts

/-! ## Parsing -/

/-- What the import takes from `str`, `float`, `int` and `datetime`; `none` is an
exception. -/
structure CsvLibraries (F : Type) where
  strip : String → String
  upper : String → String
  float : String → Option F
  int : F → Option ℤ
  strptime : String → String → Option Time

/-- A row of `csv.DictReader`. -/
abbrev CsvRow := String → Option String

inductive ImportError
  | noHeader
  | invalidNumber (value : String)
  deriving DecidableEq, Repr

/-- A DHAN token: feed segment and security id. -/
structure FeedKey where
  segment : String
  securityId : String
  deriving DecidableEq, Repr

/-- The `metadata` of a row. -/
structure DhanMetadata where
  isin : Option String
  series : Option String
  underlyingSymbol : Option String
  source : String := "DHAN_INSTRUMENT_MASTER"
  deriving DecidableEq, Repr

/-- A parsed row. -/
structure DhanInstrument (F : Type) where
  exchange : String
  segment : String
  symbol : String
  tradingSymbol : String
  name : String
  instrumentType : String
  expiryAt : Option Time
  strike : Option F
  optionType : Option String
  lotSize : Option ℤ
  tickSize : Option F
  securityId : String
  feedSegment : String
  metadata : DhanMetadata

section Parse

variable {F : Type} (lib : CsvLibraries F)

/-- `_value`. -/
def csvValue (row : CsvRow) (names : List String) : String :=
  (names.findSome? fun name => (row name).bind fun value =>
    if lib.strip value = "" then none else some (lib.strip value)).getD ""

/-- The values `_number` takes for none. -/
def isMissing (value : String) : Bool :=
  value = "" ∨ lib.upper value ∈ ["NA", "N/A", "NULL", "NAN"]

/-- `_number` with `float`. -/
def floatNumber (value : String) : Except ImportError (Option F) :=
  if isMissing lib value then .ok none
  else match lib.float value with
    | none => .error (.invalidNumber value)
    | some number => .ok (some number)

/-- `_number` with `int`. -/
def intNumber (value : String) : Except ImportError (Option ℤ) :=
  if isMissing lib value then .ok none
  else match (lib.float value).bind lib.int with
    | none => .error (.invalidNumber value)
    | some number => .ok (some number)

/-- `_expiry`. -/
def expiry (value : String) : Option Time :=
  if value = "" ∨ "0000".isPrefixOf value then none
  else ["%Y-%m-%d", "%d-%m-%Y", "%d/%m/%Y", "%Y-%m-%d %H:%M:%S"].findSome? (lib.strptime value ·)

/-- A value, or `None` for an empty one. -/
def orNone (value : String) : Option String := if value = "" then none else some value

/-- The table of exchanges and segments. -/
def feedSegments : List ((String × String) × String × String × String) := [
  (("NSE", "E"), ("NSE", "EQ", "NSE_EQ")),
  (("NSE", "D"), ("NSE", "FNO", "NSE_FNO")),
  (("NSE", "C"), ("NSE", "CURRENCY", "NSE_CURRENCY")),
  (("BSE", "E"), ("BSE", "EQ", "BSE_EQ")),
  (("BSE", "D"), ("BSE", "FNO", "BSE_FNO")),
  (("BSE", "C"), ("BSE", "CURRENCY", "BSE_CURRENCY")),
  (("MCX", "M"), ("MCX", "COMM", "MCX_COMM"))]

/-- `parse_dhan_instrument`. -/
def parseDhanInstrument (row : CsvRow) : Except ImportError (Option (DhanInstrument F)) := do
  let value := csvValue lib row
  let exchange := lib.upper (value ["EXCH_ID", "SEM_EXM_EXCH_ID"])
  let segmentCode := lib.upper (value ["SEGMENT", "SEM_SEGMENT"])
  let securityId := value ["SECURITY_ID", "SEM_SMST_SECURITY_ID"]
  let instrumentType := lib.upper (value ["INSTRUMENT", "SEM_INSTRUMENT_NAME"])
  if exchange = "" ∨ securityId = "" ∨ instrumentType = "" then return none
  let mapped :=
    if instrumentType = "INDEX" then some ("IDX", "INDEX", "IDX_I")
    else feedSegments.lookup (exchange, segmentCode)
  let some (canonicalExchange, segment, feedSegment) := mapped | return none
  let displayName := value
    ["DISPLAY_NAME", "SEM_CUSTOM_SYMBOL", "SEM_TRADING_SYMBOL", "SYMBOL_NAME", "SM_SYMBOL_NAME"]
  let symbolName := value
    ["SYMBOL_NAME", "SM_SYMBOL_NAME", "SEM_TRADING_SYMBOL", "DISPLAY_NAME", "SEM_CUSTOM_SYMBOL"]
  if displayName = "" then return none
  let optionType := (orNone (lib.upper (value ["OPTION_TYPE", "SEM_OPTION_TYPE"]))).map fun code =>
    ([("CALL", "CE"), ("PUT", "PE")].lookup code).getD code
  let strike ← floatNumber lib (value ["STRIKE_PRICE", "SEM_STRIKE_PRICE"])
  let lotSize ← intNumber lib (value ["LOT_SIZE", "SEM_LOT_UNITS"])
  let tickSize ← floatNumber lib (value ["TICK_SIZE", "SEM_TICK_SIZE"])
  return some {
    exchange := canonicalExchange
    segment := segment
    symbol := if symbolName = "" then displayName else symbolName
    tradingSymbol := displayName
    name := if symbolName = "" then displayName else symbolName
    instrumentType := instrumentType
    expiryAt := expiry lib (value ["SM_EXPIRY_DATE", "SEM_EXPIRY_DATE"])
    strike := strike
    optionType := optionType
    lotSize := lotSize
    tickSize := tickSize
    securityId := securityId
    feedSegment := feedSegment
    metadata := {
      isin := orNone (value ["ISIN"])
      series := orNone (value ["SERIES", "SEM_SERIES"])
      underlyingSymbol := orNone (value ["UNDERLYING_SYMBOL"]) } }

end Parse

/-! ## The table -/

/-- A DHAN token of an instrument: none, a complete object, or anything else, as
`str` writes it. -/
inductive DhanToken
  | none
  | key (key : FeedKey)
  | bare (text : String)
  deriving DecidableEq, Repr

/-- A row of `instruments`; its tokens of other brokers, which the import keeps, are
left out, and so is all other metadata. -/
structure Instrument (F : Type) where
  id : Uuid
  exchange : String
  segment : String
  symbol : String
  tradingSymbol : String
  name : Option String := none
  instrumentType : String
  expiryAt : Option Time := none
  strike : Option F := none
  optionType : Option String := none
  lotSize : Option ℤ := none
  tickSize : Option F := none
  token : DhanToken := .none
  dhanMetadata : Option DhanMetadata := none
  isActive : Bool := true

/-- The table, in the order `select` returns it, and the next `uuid4`. -/
structure InstrumentTable (F : Type) where
  rows : List (Instrument F) := []
  nextUuid : Uuid := 0

/-- The columns of `uq_instrument_identity`. -/
abbrev Identity := String × String × String

instance : LawfulBEq Identity := inferInstance

section Import

variable {F : Type}

def DhanInstrument.key (v : DhanInstrument F) : FeedKey := ⟨v.feedSegment, v.securityId⟩

def Instrument.identity (item : Instrument F) : Identity :=
    (item.exchange, item.segment, item.symbol)

/-- What a parsed row writes on its instrument. -/
def Instrument.importFrom (item : Instrument F) (v : DhanInstrument F) : Instrument F :=
  { item with
    tradingSymbol := v.tradingSymbol
    name := some v.name
    instrumentType := v.instrumentType
    expiryAt := v.expiryAt
    strike := v.strike
    optionType := v.optionType
    lotSize := v.lotSize
    tickSize := v.tickSize
    token := .key v.key
    dhanMetadata := some v.metadata
    isActive := true }

/-- The symbol tried after some others. -/
def DhanInstrument.symbolAt (v : DhanInstrument F) : ℕ → String
  | 0 => v.symbol
  | 1 => v.symbol ++ ":" ++ v.securityId
  | suffix => v.symbol ++ ":" ++ v.securityId ++ ":" ++ toString suffix

/-- The loop that looks for a free symbol, with the tries it has left. -/
def freeSymbol (identities : List Identity) (v : DhanInstrument F) (suffix : ℕ) : ℕ → String
  | 0 => v.symbolAt suffix
  | tries + 1 =>
    if (v.exchange, v.segment, v.symbolAt suffix) ∈ identities then
      freeSymbol identities v (suffix + 1) tries
    else v.symbolAt suffix

/-- The maps of the import with an item more. -/
def noteToken (byToken : FeedKey → Option Uuid) (item : Instrument F) : FeedKey → Option Uuid :=
  match item.token with
  | .none => byToken
  | .key key => Function.update byToken key (some item.id)
  | .bare text => Function.update byToken ⟨"", text⟩ (some item.id)

def noteLegacy (legacy : String → Option (Option Uuid)) (item : Instrument F) :
    String → Option (Option Uuid) :=
  match item.token with
  | .bare text =>
    Function.update legacy text (some (if legacy text = none then some item.id else none))
  | _ => legacy

/-- The state of the import; `held` is the instrument each parsed row was put on. -/
structure ImportState (F : Type) where
  rows : List (Instrument F)
  nextUuid : Uuid
  byToken : FeedKey → Option Uuid
  legacyBySecurity : String → Option (Option Uuid)
  identities : List Identity
  created : ℕ := 0
  updated : ℕ := 0
  skipped : ℕ := 0
  held : List (FeedKey × Uuid) := []

def ImportState.start (table : InstrumentTable F) : ImportState F where
  rows := table.rows
  nextUuid := table.nextUuid
  byToken := table.rows.foldl noteToken fun _ => none
  legacyBySecurity := table.rows.foldl noteLegacy fun _ => none
  identities := table.rows.map Instrument.identity

/-- The instrument a parsed row finds. -/
def ImportState.find? (s : ImportState F) (key : FeedKey) : Option Uuid :=
  (s.byToken key).or (s.legacyBySecurity key.securityId).join

/-- The instrument a parsed row makes. -/
def ImportState.newInstrument (s : ImportState F) (v : DhanInstrument F) : Instrument F where
  id := s.nextUuid
  exchange := v.exchange
  segment := v.segment
  symbol := freeSymbol s.identities v 0 s.identities.length
  tradingSymbol := v.tradingSymbol
  instrumentType := v.instrumentType

/-- A parsed row. -/
def ImportState.put (s : ImportState F) (v : DhanInstrument F) : ImportState F :=
  match s.find? v.key with
  | some id => { s with
      rows := updateById Instrument.id id (·.importFrom v) s.rows
      updated := s.updated + 1
      held := s.held ++ [(v.key, id)] }
  | none => { s with
      rows := s.rows ++ [(s.newInstrument v).importFrom v]
      nextUuid := s.nextUuid + 1
      byToken := Function.update s.byToken v.key (some s.nextUuid)
      identities := s.identities ++ [(s.newInstrument v).identity]
      created := s.created + 1
      held := s.held ++ [(v.key, s.nextUuid)] }

/-- A row of the file. -/
def ImportState.read (lib : CsvLibraries F) (s : ImportState F) (row : CsvRow) :
    Except ImportError (ImportState F) :=
  match parseDhanInstrument lib row with
  | .error e => .error e
  | .ok none => .ok { s with skipped := s.skipped + 1 }
  | .ok (some v) => .ok (s.put v)

/-- A file: whether it has a header, and its rows. -/
structure CsvFile where
  header : Bool := true
  rows : List CsvRow

/-- `import_dhan_instruments`: the table, and the state at the commit. -/
def importDhanInstruments (lib : CsvLibraries F) (table : InstrumentTable F) (file : CsvFile) :
    InstrumentTable F × Except ImportError (ImportState F) :=
  if ¬ file.header then (table, .error .noHeader)
  else match file.rows.foldlM (ImportState.read lib) (.start table) with
    | .error e => (table, .error e)
    | .ok s => (⟨s.rows, s.nextUuid⟩, .ok s)

end Import

/-! ## Free symbols -/

section FreeSymbol

variable {F : Type} {v : DhanInstrument F} {identities : List Identity}

theorem toString_nat_injective : Function.Injective (toString : ℕ → String) := by
  intro m n h
  have hdigits := congrArg String.toList h
  rw [Nat.toString_eq_repr, Nat.toString_eq_repr, Nat.toList_repr, Nat.toList_repr] at hdigits
  rw [← Nat.ofDigitChars_ten_toDigits (n := m), hdigits, Nat.ofDigitChars_ten_toDigits]

theorem symbolAt_injective (v : DhanInstrument F) : Function.Injective v.symbolAt := by
  intro m n h
  have hchars := congrArg String.toList h
  match m, n with
  | 0, 0 => rfl
  | 0, 1 => simp [DhanInstrument.symbolAt] at hchars
  | 0, n + 2 => simp [DhanInstrument.symbolAt] at hchars
  | 1, 0 => simp [DhanInstrument.symbolAt] at hchars
  | 1, 1 => rfl
  | 1, n + 2 => simp [DhanInstrument.symbolAt] at hchars
  | m + 2, 0 => simp [DhanInstrument.symbolAt] at hchars
  | m + 2, 1 => simp [DhanInstrument.symbolAt] at hchars
  | m + 2, n + 2 =>
    simp only [DhanInstrument.symbolAt, String.toList_append, List.append_cancel_left_eq] at hchars
    exact toString_nat_injective (String.toList_inj.1 hchars)

/-- A search that ends on a taken symbol has found all of them taken. -/
theorem freeSymbol_taken {suffix tries : ℕ}
    (h : (v.exchange, v.segment, freeSymbol identities v suffix tries) ∈ identities) :
    ∀ i ≤ tries, (v.exchange, v.segment, v.symbolAt (suffix + i)) ∈ identities := by
  induction tries generalizing suffix with
  | zero =>
    intro i hi
    obtain rfl := Nat.le_zero.1 hi
    exact h
  | succ tries ih =>
    unfold freeSymbol at h
    split at h
    · rename_i htaken
      intro i hi
      cases i with
      | zero => exact htaken
      | succ i =>
        have hnext := ih h i (Nat.le_of_succ_le_succ hi)
        rwa [Nat.add_assoc, Nat.add_comm 1] at hnext
    · rename_i hfree
      exact absurd h hfree

/-- **The search ends**: of more symbols than there are identities one is free. -/
theorem freeSymbol_free (identities : List Identity) (v : DhanInstrument F) :
    (v.exchange, v.segment, freeSymbol identities v 0 identities.length) ∉ identities := by
  intro htaken
  have hall := freeSymbol_taken htaken
  let tried := (List.range (identities.length + 1)).map fun i =>
    (v.exchange, v.segment, v.symbolAt (0 + i))
  have hnodup : tried.Nodup := by
    refine List.nodup_range.map fun i j hij => ?_
    rw [Nat.zero_add, Nat.zero_add] at hij
    exact symbolAt_injective v (Prod.mk.inj (Prod.mk.inj hij).2).2
  have hsubset : tried ⊆ identities := by
    intro identity hmem
    obtain ⟨i, hi, rfl⟩ := List.mem_map.1 hmem
    exact hall i (Nat.le_of_lt_succ (List.mem_range.1 hi))
  have hlength := (List.subperm_of_subset hnodup hsubset).length_le
  rw [List.length_map, List.length_range] at hlength
  exact absurd hlength (Nat.not_succ_le_self _)

end FreeSymbol

end GnkAlgo
