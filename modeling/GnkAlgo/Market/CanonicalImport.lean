import GnkAlgo.Market.Instruments

/-!
# The canonical instrument file

`import_instruments` of `backend/app/cli.py`.  Each row of the file is put on the
instrument with its exchange, segment and symbol, which is looked up among the stored
ones: the session does not flush before a query, so an instrument that an earlier row
has made is not found, and a second one is made.  The constraint `uq_instrument_identity`
refuses both at the commit.

* `importInstruments` — the file;
* `ImportedAs` — the table with each identity as its last row has it;
* `NewOnce` — an identity that is not stored is in one row only;
* `canonical_import_iff` — the import is such exactly for these files.
-/

namespace GnkAlgo

open Upserts

/-! ## Rows of the file -/

structure CanonicalLibraries (F : Type) extends CsvLibraries F where
  /-- `int` of a text. -/
  intOf : String → Option ℤ

inductive CanonicalError
  | exit (message : String)
  /-- The cells after the last column are a list, which has no `strip`. -/
  | attributeError
  | invalidNumber (value : String)
  | integrityError
  deriving DecidableEq, Repr

/-- A row: its fields, none where there is no such column or cell, and whether it has
more cells than there are columns. -/
structure CanonicalRow where
  fields : CsvRow
  surplus : Bool := false

structure CanonicalFile where
  fieldnames : List String
  rows : List CanonicalRow

/-- The values of a row. -/
structure CanonicalValues (F : Type) where
  exchange : String
  segment : String
  symbol : String
  tradingSymbol : String
  name : Option String
  instrumentType : String
  lotSize : Option ℤ
  tickSize : Option F
  optionType : Option String
  strike : Option F
  token : DhanToken
  otherTokens : List (String × String)
  deriving DecidableEq

section Parse

variable {F : Type} (lib : CanonicalLibraries F)

/-- `(row.get(key) or "").strip()`. -/
def strippedCell (row : CsvRow) (name : String) : String := ((row name).map lib.strip).getD ""

/-- `parse(value) if value else None`. -/
def numberIfAny {α : Type} (parse : String → Option α) (value : String) :
    Except CanonicalError (Option α) :=
  if value = "" then .ok none
  else match parse value with
    | none => .error (.invalidNumber value)
    | some number => .ok (some number)

/-- The values that are written for a row. -/
def canonicalValues (row : CsvRow) : Except CanonicalError (CanonicalValues F) := do
  let value := strippedCell lib row
  let lotSize ← numberIfAny lib.intOf (value "lot_size")
  let tickSize ← numberIfAny lib.float (value "tick_size")
  let strike ← numberIfAny lib.float (value "strike")
  return {
    exchange := lib.upper (value "exchange")
    segment := lib.upper (value "segment")
    symbol := value "symbol"
    tradingSymbol := value "trading_symbol"
    name := orNone (value "name")
    instrumentType := lib.upper (value "instrument_type")
    lotSize := lotSize
    tickSize := tickSize
    optionType := orNone (value "option_type")
    strike := strike
    token := if value "dhan_token" = "" then .none else .bare (value "dhan_token")
    otherTokens := [("FYERS", "fyers_token"), ("UPSTOX", "upstox_token")].filterMap
      fun (broker, column) => (orNone (value column)).map (broker, ·) }

/-- A row of the file, which has no cells without a column. -/
def readCanonicalRow (row : CanonicalRow) : Except CanonicalError (CanonicalValues F) :=
  if row.surplus then .error .attributeError else canonicalValues lib row.fields

end Parse

/-! ## The import -/

/-- A row of `instruments` with its tokens of other brokers than Dhan. -/
structure SecurityRow (F : Type) extends Instrument F where
  otherTokens : List (String × String) := []

structure SecurityTable (F : Type) where
  rows : List (SecurityRow F) := []
  nextUuid : Uuid := 0

section Import

variable {F : Type}

def CanonicalValues.identity (v : CanonicalValues F) : Identity := (v.exchange, v.segment, v.symbol)

def SecurityRow.identity (item : SecurityRow F) : Identity := item.toInstrument.identity

/-- The assignments to an instrument. -/
def SecurityRow.write (item : SecurityRow F) (v : CanonicalValues F) : SecurityRow F :=
  { item with
    tradingSymbol := v.tradingSymbol
    name := v.name
    instrumentType := v.instrumentType
    lotSize := v.lotSize
    tickSize := v.tickSize
    optionType := v.optionType
    strike := v.strike
    token := v.token
    otherTokens := v.otherTokens }

/-- `Instrument(…)`. -/
def newSecurity (id : Uuid) (v : CanonicalValues F) : SecurityRow F where
  id := id
  exchange := v.exchange
  segment := v.segment
  symbol := v.symbol
  tradingSymbol := v.tradingSymbol
  instrumentType := v.instrumentType

/-- The session: the rows that are stored, as they are changed, and those added. -/
structure CanonicalImport (F : Type) where
  stored : List (SecurityRow F)
  added : List (SecurityRow F) := []
  nextUuid : Uuid
  count : ℕ := 0

/-- The body of the loop; the query finds stored rows only. -/
def CanonicalImport.put (s : CanonicalImport F) (v : CanonicalValues F) : CanonicalImport F :=
  if v.identity ∈ s.stored.map SecurityRow.identity then
    { s with
      stored := updateById SecurityRow.identity v.identity (·.write v) s.stored
      count := s.count + 1 }
  else { s with
    added := s.added ++ [(newSecurity s.nextUuid v).write v]
    nextUuid := s.nextUuid + 1
    count := s.count + 1 }

def CanonicalImport.read (lib : CanonicalLibraries F) (s : CanonicalImport F) (row : CanonicalRow) :
    Except CanonicalError (CanonicalImport F) :=
  (readCanonicalRow lib row).map s.put

/-- `required`, sorted. -/
def requiredColumns : List String :=
  ["exchange", "instrument_type", "segment", "symbol", "trading_symbol"]

/-- `import_instruments`: the table, and what is printed. -/
def importInstruments (lib : CanonicalLibraries F) (table : SecurityTable F)
    (file : CanonicalFile) : SecurityTable F × Except CanonicalError String :=
  if ¬ requiredColumns ⊆ file.fieldnames then
    (table, .error (.exit ("CSV must contain: " ++ ", ".intercalate requiredColumns)))
  else match file.rows.foldlM (CanonicalImport.read lib) ⟨table.rows, [], table.nextUuid, 0⟩ with
    | .error e => (table, .error e)
    | .ok s =>
      if ((s.stored ++ s.added).map SecurityRow.identity).Nodup then
        (⟨s.stored ++ s.added, s.nextUuid⟩, .ok s!"Imported {s.count} instruments")
      else (table, .error .integrityError)

/-! ## What is asked -/

/-- The values of the rows whose numbers parse. -/
def CanonicalFile.values (file : CanonicalFile) (lib : CanonicalLibraries F) :
    List (CanonicalValues F) :=
  file.rows.filterMap fun row => (canonicalValues lib row.fields).toOption

/-- The identity a row of the file is for. -/
def CanonicalValues.target (v : CanonicalValues F) : Option Identity := some v.identity

/-- The import succeeds.  There is one instrument for an identity, with the fields of
the last row for it; of the stored ones those no row is for are as before; and the file
once more changes nothing. -/
structure ImportedAs (lib : CanonicalLibraries F) (table : SecurityTable F) (file : CanonicalFile) :
    Prop where
  succeeds : ∃ message, (importInstruments lib table file).2 = .ok message
  unique : ((importInstruments lib table file).1.rows.map SecurityRow.identity).Nodup
  last : ∀ k v, lastFor CanonicalValues.target k (file.values lib) = some v →
    ∃ item ∈ (importInstruments lib table file).1.rows, item.identity = k ∧ item.write v = item
  stored : ∀ item ∈ table.rows,
    patch SecurityRow.identity SecurityRow.write CanonicalValues.target (file.values lib) item ∈
      (importInstruments lib table file).1.rows
  only : ∀ item ∈ (importInstruments lib table file).1.rows,
    item.identity ∈ table.rows.map SecurityRow.identity ∨
      ∃ v ∈ file.values lib, v.identity = item.identity
  again : importInstruments lib (importInstruments lib table file).1 file =
    importInstruments lib table file

/-- An identity that is not stored is in one row only. -/
def NewOnce (rows : List (SecurityRow F)) (values : List (CanonicalValues F)) : Prop :=
  ((values.filter fun v => v.identity ∉ rows.map SecurityRow.identity).map
    CanonicalValues.identity).Nodup

instance (rows : List (SecurityRow F)) (values : List (CanonicalValues F)) :
    Decidable (NewOnce rows values) := inferInstanceAs (Decidable (List.Nodup _))

/-! ## Along the file -/

/-- The session after some rows. -/
structure CanonicalImport.Filed (table : SecurityTable F) (values : List (CanonicalValues F))
    (s : CanonicalImport F) : Prop where
  stored : s.stored =
    patched SecurityRow.identity SecurityRow.write CanonicalValues.target values table.rows
  identities : s.added.map SecurityRow.identity =
    (values.filter fun v => v.identity ∉ table.rows.map SecurityRow.identity).map
      CanonicalValues.identity
  added : ∀ item ∈ s.added, ∃ v ∈ values, v.identity = item.identity ∧ item.write v = item
  nextUuid : s.nextUuid = table.nextUuid + s.added.length
  count : s.count = values.length

variable {table : SecurityTable F} {values : List (CanonicalValues F)} {s : CanonicalImport F}
  {lib : CanonicalLibraries F}

theorem write_identity (item : SecurityRow F) (v : CanonicalValues F) :
    (item.write v).identity = item.identity := rfl

theorem write_write (item : SecurityRow F) (v w : CanonicalValues F) :
    (item.write v).write w = item.write w := rfl

theorem CanonicalImport.Filed.stored_identities (h : s.Filed table values) :
    s.stored.map SecurityRow.identity = table.rows.map SecurityRow.identity := by
  rw [h.stored]
  exact map_key_patched write_identity

/-- **A row more.** -/
theorem CanonicalImport.Filed.put (h : s.Filed table values) (v : CanonicalValues F) :
    (s.put v).Filed table (values ++ [v]) := by
  have hadded : ∀ item ∈ s.added, ∃ w ∈ values ++ [v], w.identity = item.identity ∧
      item.write w = item := by
    intro item hitem
    obtain ⟨w, hw, hwrite⟩ := h.added item hitem
    exact ⟨w, List.mem_append_left _ hw, hwrite⟩
  have hcount : s.count + 1 = (values ++ [v]).length := by
    rw [List.length_append, List.length_singleton, h.count]
  unfold CanonicalImport.put
  split
  · rename_i hstored
    rw [h.stored_identities] at hstored
    refine ⟨?_, ?_, hadded, h.nextUuid, hcount⟩
    · dsimp only
      rw [h.stored]
      exact patched_concat write_identity write_write rfl
    · rw [h.identities, Rows.filter_concat_of_neg (by simpa using hstored)]
  · rename_i hnew
    rw [h.stored_identities] at hnew
    refine ⟨?_, ?_, fun item hitem => ?_, ?_, hcount⟩
    · dsimp only
      rw [h.stored]
      refine (patched_concat_of_ne fun row hrow heq => hnew ?_).symm
      rw [Option.some.inj heq]
      exact List.mem_map_of_mem hrow
    · dsimp only
      rw [List.map_append, h.identities, Rows.filter_concat_of_pos (by simpa using hnew),
        List.map_append]
      rfl
    · rcases List.mem_append.1 hitem with hold | hlast
      · exact hadded item hold
      · rw [List.mem_singleton.1 hlast]
        exact ⟨v, List.mem_append_right _ (List.mem_singleton_self v), rfl, write_write ..⟩
    · dsimp only
      rw [List.length_append, List.length_singleton, h.nextUuid]
      rfl

theorem filed_foldl (table : SecurityTable F) (values : List (CanonicalValues F)) :
    (values.foldl CanonicalImport.put ⟨table.rows, [], table.nextUuid, 0⟩).Filed table values := by
  induction values using List.reverseRecOn with
  | nil => exact ⟨(patched_nil _).symm, rfl, List.forall_mem_nil _, rfl, rfl⟩
  | append_singleton values v ih =>
    rw [List.foldl_concat]
    exact ih.put v

/-! ## Reading the file -/

theorem read_eq {row : CanonicalRow} {v : CanonicalValues F} (hsurplus : ¬ row.surplus)
    (hv : canonicalValues lib row.fields = .ok v) (s : CanonicalImport F) :
    s.read lib row = .ok (s.put v) := by
  unfold CanonicalImport.read readCanonicalRow
  rw [if_neg hsurplus, hv]
  rfl

/-- A file is put row by row. -/
theorem foldlM_readCanonical {rows : List CanonicalRow} (hsurplus : ∀ row ∈ rows, ¬ row.surplus)
    (hparse : ∀ row ∈ rows, ∃ v, canonicalValues lib row.fields = .ok v)
    (s : CanonicalImport F) : rows.foldlM (CanonicalImport.read lib) s =
      .ok ((rows.filterMap fun row => (canonicalValues lib row.fields).toOption).foldl
        CanonicalImport.put s) := by
  induction rows generalizing s with
  | nil => rfl
  | cons row rows ih =>
    obtain ⟨v, hv⟩ := hparse row List.mem_cons_self
    have hrest := ih (fun row hrow => hsurplus row (List.mem_cons_of_mem _ hrow))
      (fun row hrow => hparse row (List.mem_cons_of_mem _ hrow)) (s.put v)
    rw [List.foldlM_cons, read_eq (hsurplus row List.mem_cons_self) hv,
      List.filterMap_cons_some (by rw [hv]; rfl), List.foldl_cons, ← hrest]
    rfl

/-- A row with surplus cells ends the import. -/
theorem surplus_of_foldlM {rows : List CanonicalRow} {s s' : CanonicalImport F}
    (h : rows.foldlM (CanonicalImport.read lib) s = .ok s') : ∀ row ∈ rows, ¬ row.surplus := by
  induction rows generalizing s with
  | nil => exact List.forall_mem_nil _
  | cons row rows ih =>
    rw [List.foldlM_cons] at h
    cases hread : s.read lib row with
    | error e =>
      rw [hread] at h
      cases h
    | ok next =>
      rw [hread] at h
      refine List.forall_mem_cons.2 ⟨fun hsurplus => ?_, ih h⟩
      unfold CanonicalImport.read readCanonicalRow at hread
      rw [if_pos hsurplus] at hread
      cases hread

/-! ## The table after the file -/

/-- The identities at the commit. -/
theorem CanonicalImport.Filed.nodup_iff (h : s.Filed table values)
    (hidentity : (table.rows.map SecurityRow.identity).Nodup) :
    ((s.stored ++ s.added).map SecurityRow.identity).Nodup ↔ NewOnce table.rows values := by
  rw [List.map_append, h.stored_identities, h.identities, List.nodup_append']
  refine ⟨fun hnodup => hnodup.2.1, fun hnew => ⟨hidentity, hnew, fun k hk hk' => ?_⟩⟩
  obtain ⟨v, hv, rfl⟩ := List.mem_map.1 hk'
  exact of_decide_eq_true (List.mem_filter.1 hv).2 hk

/-- Every identity of the file is in the table. -/
theorem CanonicalImport.Filed.identity_mem (h : s.Filed table values) {v : CanonicalValues F}
    (hv : v ∈ values) : v.identity ∈ (s.stored ++ s.added).map SecurityRow.identity := by
  rw [List.map_append, h.stored_identities, h.identities]
  by_cases hstored : v.identity ∈ table.rows.map SecurityRow.identity
  · exact List.mem_append_left _ hstored
  · exact List.mem_append_right _ (List.mem_map_of_mem (List.mem_filter.2
      ⟨hv, decide_eq_true hstored⟩))

/-- An instrument with the identity of a row has the fields of the last such. -/
theorem CanonicalImport.Filed.last (h : s.Filed table values) (hnew : NewOnce table.rows values)
    {item : SecurityRow F} (hitem : item ∈ s.stored ++ s.added) {v : CanonicalValues F}
    (hv : lastFor CanonicalValues.target item.identity values = some v) : item.write v = item := by
  rcases List.mem_append.1 hitem with hstored | hadded
  · rw [h.stored] at hstored
    obtain ⟨old, hold, rfl⟩ := List.mem_map.1 hstored
    rw [key_patch write_identity] at hv
    unfold patch
    rw [hv]
    exact write_write ..
  · obtain ⟨w, hw, hsame, hwrite⟩ := h.added item hadded
    obtain ⟨hmem, htarget⟩ := lastFor_mem hv
    -- the row that made the instrument is the only one with its identity
    have hfresh : item.identity ∉ table.rows.map SecurityRow.identity := by
      have hkey : item.identity ∈ s.added.map SecurityRow.identity := List.mem_map_of_mem hadded
      rw [h.identities] at hkey
      obtain ⟨x, hx, hxsame⟩ := List.mem_map.1 hkey
      exact hxsame ▸ of_decide_eq_true (List.mem_filter.1 hx).2
    have hvsame : v.identity = item.identity := Option.some.inj htarget
    have heq : v = w := List.inj_on_of_nodup_map hnew
      (List.mem_filter.2 ⟨hmem, decide_eq_true (hvsame ▸ hfresh)⟩)
      (List.mem_filter.2 ⟨hw, decide_eq_true (hsame ▸ hfresh)⟩) (hvsame.trans hsame.symm)
    rw [heq]
    exact hwrite

/-- The same rows once more. -/
theorem CanonicalImport.Filed.again (h : s.Filed table values) (hnew : NewOnce table.rows values) :
    values.foldl CanonicalImport.put ⟨s.stored ++ s.added, [], s.nextUuid, 0⟩ =
      ⟨s.stored ++ s.added, [], s.nextUuid, s.count⟩ := by
  have hfiled := filed_foldl ⟨s.stored ++ s.added, s.nextUuid⟩ values
  dsimp only at hfiled
  generalize values.foldl CanonicalImport.put ⟨s.stored ++ s.added, [], s.nextUuid, 0⟩ = s'
    at hfiled ⊢
  have hnone : s'.added = [] := by
    have hidentities := hfiled.identities
    rw [List.filter_eq_nil_iff.2 fun v hv => ?_, List.map_nil, List.map_eq_nil_iff] at hidentities
    · exact hidentities
    · exact fun hnot => of_decide_eq_true hnot (h.identity_mem hv)
  have hstored : s'.stored = s.stored ++ s.added := by
    rw [hfiled.stored]
    refine (List.map_congr_left fun item hitem => ?_).trans (List.map_id _)
    unfold patch
    split
    · rfl
    · rename_i v hv
      exact h.last hnew hitem hv
  have hnext : s'.nextUuid = s.nextUuid := by
    rw [hfiled.nextUuid, hnone]
    rfl
  have hcount : s'.count = s.count := hfiled.count.trans h.count.symm
  obtain ⟨stored, added, nextUuid, count⟩ := s'
  dsimp only at hnone hstored hnext hcount
  rw [hnone, hstored, hnext, hcount]

/-- **The import of a file** that is in order. -/
theorem importInstruments_eq {file : CanonicalFile}
    (hidentity : (table.rows.map SecurityRow.identity).Nodup)
    (hheader : requiredColumns ⊆ file.fieldnames)
    (hread : file.rows.foldlM (CanonicalImport.read lib) ⟨table.rows, [], table.nextUuid, 0⟩ = .ok s)
    (hfiled : s.Filed table values) :
    importInstruments lib table file = if NewOnce table.rows values then
      (⟨s.stored ++ s.added, s.nextUuid⟩, .ok s!"Imported {s.count} instruments")
      else (table, .error .integrityError) := by
  unfold importInstruments
  rw [if_neg (not_not.2 hheader), hread]
  dsimp only
  exact if_congr (hfiled.nodup_iff hidentity) rfl rfl

/-- **Upsert by identity.**  For a table whose identities are unique and a file with the
required columns whose numbers parse, the import is as asked exactly when no row has more
cells than there are columns, and an identity that is not stored is in one row only. -/
theorem canonical_import_iff (lib : CanonicalLibraries F) {table : SecurityTable F}
    {file : CanonicalFile} (hidentity : (table.rows.map SecurityRow.identity).Nodup)
    (hheader : requiredColumns ⊆ file.fieldnames)
    (hparse : ∀ row ∈ file.rows, ∃ v, canonicalValues lib row.fields = .ok v) :
    ImportedAs lib table file ↔
      (∀ row ∈ file.rows, ¬ row.surplus) ∧ NewOnce table.rows (file.values lib) := by
  have hfiled := filed_foldl table (file.values lib)
  constructor
  · intro h
    obtain ⟨message, hok⟩ := h.succeeds
    have hsurplus : ∀ row ∈ file.rows, ¬ row.surplus := by
      unfold importInstruments at hok
      rw [if_neg (not_not.2 hheader)] at hok
      split at hok
      · cases hok
      · rename_i s hread
        exact surplus_of_foldlM hread
    refine ⟨hsurplus, by_contra fun hnot => ?_⟩
    rw [importInstruments_eq hidentity hheader (foldlM_readCanonical hsurplus hparse _) hfiled,
      if_neg hnot] at hok
    cases hok
  · rintro ⟨hsurplus, hnew⟩
    have hread : ∀ s : CanonicalImport F, file.rows.foldlM (CanonicalImport.read lib) s =
        .ok ((file.values lib).foldl CanonicalImport.put s) :=
      foldlM_readCanonical hsurplus hparse
    have hfirst := hread ⟨table.rows, [], table.nextUuid, 0⟩
    generalize (file.values lib).foldl CanonicalImport.put ⟨table.rows, [], table.nextUuid, 0⟩ = s
      at hfiled hfirst
    have hresult := importInstruments_eq hidentity hheader hfirst hfiled
    rw [if_pos hnew] at hresult
    have hunique := (hfiled.nodup_iff hidentity).2 hnew
    refine ⟨⟨_, by rw [hresult]⟩, by rw [hresult]; exact hunique, fun k v hv => ?_, ?_, ?_, ?_⟩
    · rw [hresult]
      obtain ⟨hvmem, htarget⟩ := lastFor_mem hv
      obtain ⟨item, hitem, hsame⟩ := List.mem_map.1 (hfiled.identity_mem hvmem)
      have hk : item.identity = k := hsame.trans (Option.some.inj htarget)
      exact ⟨item, hitem, hk, hfiled.last hnew hitem (hk ▸ hv)⟩
    · intro item hitem
      rw [hresult]
      refine List.mem_append_left _ ?_
      rw [hfiled.stored]
      exact List.mem_map_of_mem hitem
    · intro item hitem
      rw [hresult] at hitem
      rcases List.mem_append.1 hitem with hstored | hadded
      · exact Or.inl (hfiled.stored_identities ▸ List.mem_map_of_mem hstored)
      · obtain ⟨v, hv, hsame, -⟩ := hfiled.added item hadded
        exact Or.inr ⟨v, hv, hsame⟩
    · rw [hresult]
      have hsecond := (hread _).trans (congrArg Except.ok (hfiled.again hnew))
      unfold importInstruments
      rw [if_neg (not_not.2 hheader)]
      dsimp only
      rw [hsecond]
      dsimp only
      rw [List.append_nil, if_pos hunique]

end Import

/-! ### A security in two rows -/

def canonicalCsv : CanonicalLibraries ℚ where
  strip text := text
  upper := String.toUpper
  float _ := none
  int _ := none
  strptime _ _ := none
  intOf _ := none

def canonicalRow (exchange name : String) : CanonicalRow where
  fields column := [("exchange", exchange), ("segment", "EQ"), ("symbol", "SBIN"),
    ("trading_symbol", "SBIN-EQ"), ("instrument_type", "EQUITY"), ("name", name)].lookup column

/-- The security twice, once with the exchange in lower case. -/
def repeatedFile : CanonicalFile where
  fieldnames := "name" :: requiredColumns
  rows := [canonicalRow "NSE" "State Bank", canonicalRow "nse" "State Bank of India"]

theorem canonicalRow_parses (exchange name : String) :
    ∃ v, canonicalValues canonicalCsv (canonicalRow exchange name).fields = .ok v := by
  have hempty : ∀ column ∈ ["lot_size", "tick_size", "strike"],
      strippedCell canonicalCsv (canonicalRow exchange name).fields column = "" := by
    simp [strippedCell, canonicalRow, List.lookup]
  unfold canonicalValues
  dsimp only
  rw [hempty "lot_size" (by simp), hempty "tick_size" (by simp), hempty "strike" (by simp)]
  exact ⟨_, rfl⟩

theorem repeatedFile_parses : ∀ row ∈ repeatedFile.rows,
    ∃ v, canonicalValues canonicalCsv row.fields = .ok v := by
  intro row hrow
  rcases List.mem_pair.1 hrow with rfl | rfl <;> exact canonicalRow_parses _ _

theorem repeatedFile_refused :
    (importInstruments canonicalCsv {} repeatedFile).2.toOption = none := by decide +kernel

/-- The second row does not find the instrument of the first. -/
theorem repeated_new_security : ¬ ∀ (F : Type) (lib : CanonicalLibraries F)
    (table : SecurityTable F) (file : CanonicalFile),
    (table.rows.map SecurityRow.identity).Nodup → requiredColumns ⊆ file.fieldnames →
    (∀ row ∈ file.rows, ∃ v, canonicalValues lib row.fields = .ok v) →
      ImportedAs lib table file := by
  intro h
  obtain ⟨message, hok⟩ := (h ℚ canonicalCsv {} repeatedFile List.nodup_nil
    (List.subset_cons_self _ _) repeatedFile_parses).succeeds
  have hrefused := repeatedFile_refused
  rw [hok] at hrefused
  cases hrefused

def storedSecurity : SecurityTable ℚ where
  rows := [{
    id := 0
    exchange := "NSE"
    segment := "EQ"
    symbol := "SBIN"
    tradingSymbol := "SBIN"
    instrumentType := "EQUITY" }]
  nextUuid := 1

/-- A stored security is found by both rows. -/
theorem canonical_import_iff_storedSecurity :
    ImportedAs canonicalCsv storedSecurity repeatedFile := by
  have hidentity : (storedSecurity.rows.map SecurityRow.identity).Nodup := by decide
  have hsurplus : ∀ row ∈ repeatedFile.rows, ¬ row.surplus := by
    intro row hrow
    rcases List.mem_pair.1 hrow with rfl | rfl <;> exact Bool.false_ne_true
  exact (canonical_import_iff canonicalCsv hidentity (List.subset_cons_self _ _)
    repeatedFile_parses).2 ⟨hsurplus, by decide +kernel⟩

end GnkAlgo
