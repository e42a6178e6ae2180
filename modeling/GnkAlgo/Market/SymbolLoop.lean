import GnkAlgo.Market.DhanMaster

/-!
# Symbols of new instruments

The loop of `import_dhan_instruments` that looks for a symbol which is not taken,
as a loop that may run on: `SuffixLoop identities v suffix symbol` says that the
loop, at some suffix, ends with a symbol.

* `suffixLoop_freeSymbol` — it ends on every row, with the symbol the import takes;
* `SuffixLoop.unique` — and with no other;
* `read_counted` — each row of the file is counted once;
* `import_identity` — the import keeps the identities apart and counts its rows.
-/

namespace GnkAlgo

variable {F : Type}

/-- `while identity in identities`: the symbol the loop ends with. -/
inductive SuffixLoop (identities : List Identity) (v : DhanInstrument F) : ℕ → String → Prop
  | free {suffix : ℕ} (h : (v.exchange, v.segment, v.symbolAt suffix) ∉ identities) :
    SuffixLoop identities v suffix (v.symbolAt suffix)
  | taken {suffix : ℕ} {symbol : String}
    (h : (v.exchange, v.segment, v.symbolAt suffix) ∈ identities)
    (hnext : SuffixLoop identities v (suffix + 1) symbol) : SuffixLoop identities v suffix symbol

section Loop

variable {identities : List Identity} {v : DhanInstrument F} {suffix tries : ℕ}
  {symbol symbol' : String}

/-- The loop has one result. -/
theorem SuffixLoop.unique (h : SuffixLoop identities v suffix symbol)
    (h' : SuffixLoop identities v suffix symbol') : symbol = symbol' := by
  induction h with
  | free hfree =>
    cases h' with
    | free _ => rfl
    | taken htaken _ => exact absurd htaken hfree
  | taken htaken _ ih =>
    cases h' with
    | free hfree => exact absurd htaken hfree
    | taken _ hnext => exact ih hnext

/-- Where enough tries find a free symbol the loop ends with it. -/
theorem suffixLoop_of_free
    (h : (v.exchange, v.segment, freeSymbol identities v suffix tries) ∉ identities) :
    SuffixLoop identities v suffix (freeSymbol identities v suffix tries) := by
  induction tries generalizing suffix with
  | zero => exact .free h
  | succ tries ih =>
    unfold freeSymbol at h ⊢
    split
    · rename_i htaken
      rw [if_pos htaken] at h
      exact .taken htaken (ih h)
    · rename_i hfree
      exact .free hfree

/-- **The loop ends**, whatever symbols there are. -/
theorem suffixLoop_freeSymbol (identities : List Identity) (v : DhanInstrument F) :
    SuffixLoop identities v 0 (freeSymbol identities v 0 identities.length) :=
  suffixLoop_of_free (freeSymbol_free identities v)

end Loop

/-! ## The rows of a file -/

section File

variable {lib : CsvLibraries F} {table : InstrumentTable F} {s s' : ImportState F}

/-- The rows that are accounted for. -/
def ImportState.counted (s : ImportState F) : ℕ := s.created + s.updated + s.skipped

theorem put_counted (s : ImportState F) (v : DhanInstrument F) :
    (s.put v).counted = s.counted + 1 := by
  unfold ImportState.counted
  cases hfind : s.find? v.key with
  | some id =>
    rw [ImportState.put_of_some hfind]
    dsimp only
    omega
  | none =>
    rw [ImportState.put_of_none hfind]
    dsimp only
    omega

/-- **Each row is counted once.** -/
theorem read_counted {row : CsvRow} (h : s.read lib row = .ok s') :
    s'.counted = s.counted + 1 := by
  unfold ImportState.read at h
  split at h
  · cases h
  · cases h
    rfl
  · cases h
    exact put_counted s _

theorem foldlM_counted {rows : List CsvRow}
    (h : rows.foldlM (ImportState.read lib) s = .ok s') :
    s'.counted = s.counted + rows.length := by
  induction rows generalizing s with
  | nil =>
    cases h
    rfl
  | cons row rows ih =>
    rw [List.foldlM_cons] at h
    cases hrow : s.read lib row with
    | error e =>
      rw [hrow] at h
      cases h
    | ok s₁ =>
      rw [hrow] at h
      have hrest : s'.counted = s₁.counted + rows.length := ih h
      rw [hrest, read_counted hrow, List.length_cons]
      omega

/-- **The import keeps the identities apart.**  For every table that has each
identity once and every file whose rows parse: the import ends, the loop that looks
for a symbol ends on every row that makes an instrument, with the symbol the
instrument gets; no two instruments have one identity afterwards; and each row is
counted as created, updated or skipped. -/
theorem import_identity (lib : CsvLibraries F)
    (hidentity : (table.rows.map Instrument.identity).Nodup) {file : CsvFile}
    (hheader : file.header) (hparse : ∀ row ∈ file.rows, ∃ v, parseDhanInstrument lib row = .ok v) :
    ∃ s, importDhanInstruments lib table file = (⟨s.rows, s.nextUuid⟩, .ok s) ∧
      (∀ before row after v s₀, file.rows = before ++ row :: after →
        before.foldlM (ImportState.read lib) (.start table) = .ok s₀ →
        parseDhanInstrument lib row = .ok (some v) → s₀.find? v.key = none →
        SuffixLoop s₀.identities v 0 (s₀.newInstrument v).symbol) ∧
      (s.rows.map Instrument.identity).Nodup ∧
      s.created + s.updated + s.skipped = file.rows.length := by
  obtain ⟨skipped, hread⟩ := foldlM_read hparse (ImportState.start table)
  refine ⟨_, ?_, ?_, ?_, (foldlM_counted hread).trans ?_⟩
  · unfold importDhanInstruments
    rw [if_neg (not_not.2 hheader), hread]
  · intro _ _ _ v s₀ _ _ _ _
    exact suffixLoop_freeSymbol s₀.identities v
  · exact identities_putAll hidentity (parsedRows lib file.rows)
  · exact Nat.zero_add _

end File

/-! ### A symbol that is taken twice over -/

/-- The symbol, and the symbol with the security id, are taken. -/
def crowdedTable : InstrumentTable ℚ where
  rows := ["SBIN", "SBIN:3045"].zipIdx.map fun (symbol, id) => {
    id := id
    exchange := "NSE"
    segment := "EQ"
    symbol := symbol
    tradingSymbol := symbol
    instrumentType := "EQUITY" }
  nextUuid := 2

theorem import_identity_crowdedTable : ∃ s, importDhanInstruments plainCsv crowdedTable
      ⟨true, [masterRow "NSE" "3045" "SBIN"]⟩ = (⟨s.rows, s.nextUuid⟩, .ok s) ∧
    (s.rows.map Instrument.identity).Nodup ∧ s.created + s.updated + s.skipped = 1 := by
  have hparse : ∀ row ∈ (⟨true, [masterRow "NSE" "3045" "SBIN"]⟩ : CsvFile).rows,
      ∃ v, parseDhanInstrument plainCsv row = .ok v := by
    intro row hrow
    rw [List.mem_singleton.1 hrow]
    exact ⟨_, rfl⟩
  have hidentity : (crowdedTable.rows.map Instrument.identity).Nodup := by decide
  obtain ⟨s, himport, -, hnodup, hcounted⟩ := import_identity plainCsv hidentity rfl hparse
  exact ⟨s, himport, hnodup, hcounted⟩

example : (importDhanInstruments plainCsv crowdedTable
    ⟨true, [masterRow "NSE" "3045" "SBIN"]⟩).1.rows.map (·.symbol) =
      ["SBIN", "SBIN:3045", "SBIN:3045:2"] := by
  decide +kernel

end GnkAlgo
