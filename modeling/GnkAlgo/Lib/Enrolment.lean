import Mathlib

/-!
# Enrolments

The log of somebody who uses a second factor, the latest entry first: a secret is
set up, the factor is switched on with a batch of codes, codes are spent one by
one, and the factor is switched off.

* `secretOf`, `isOn`, `codesOf` — what a log leaves;
* `Valid` — every entry was possible where it was made;
* `Valid.secret_of_isOn` — a factor that is on has a secret;
* `Valid.issued_again` — a code that is spent twice was issued in between.
-/

namespace Enrolment

/-- An entry of a log: `σ` is what a secret is, `κ` what a code is. -/
inductive Entry (σ κ : Type*)
  | setUp (secret : σ)
  | switchOn (codes : List κ)
  | spend (code : κ)
  | switchOff
  deriving DecidableEq, Repr

variable {σ κ : Type*}

/-- The secret set up last, while the factor was not switched off. -/
def secretOf : List (Entry σ κ) → Option σ
  | [] => none
  | .setUp secret :: _ => some secret
  | .switchOff :: _ => none
  | .switchOn _ :: log => secretOf log
  | .spend _ :: log => secretOf log

def isOn : List (Entry σ κ) → Bool
  | [] => false
  | .switchOn _ :: _ => true
  | .switchOff :: _ => false
  | .setUp _ :: log => isOn log
  | .spend _ :: log => isOn log

/-- The codes that are good for one use. -/
def codesOf : List (Entry σ κ) → Set κ
  | [] => ∅
  | .switchOn codes :: _ => {code | code ∈ codes}
  | .switchOff :: _ => ∅
  | .setUp _ :: log => codesOf log
  | .spend code :: log => codesOf log \ {code}

/-- A secret is set up while the factor is off, the factor is switched on with a
secret, and a code is spent that is left. -/
def Valid : List (Entry σ κ) → Prop
  | [] => True
  | .setUp _ :: log => isOn log = false ∧ Valid log
  | .switchOn _ :: log => (secretOf log).isSome ∧ Valid log
  | .spend code :: log => code ∈ codesOf log ∧ Valid log
  | .switchOff :: log => Valid log

/-! ## What a log leaves -/

section Laws

variable {log : List (Entry σ κ)} {code : κ}

theorem Valid.secret_of_isOn (h : Valid log) (hon : isOn log) : (secretOf log).isSome := by
  induction log with
  | nil => cases hon
  | cons entry log ih =>
    cases entry with
    | setUp secret => rfl
    | switchOn codes => exact h.1
    | spend code => exact ih h.2 hon
    | switchOff => cases hon

theorem Valid.tail {entry : Entry σ κ} (h : Valid (entry :: log)) : Valid log := by
  cases entry with
  | setUp secret => exact h.2
  | switchOn codes => exact h.2
  | spend code => exact h.2
  | switchOff => exact h

theorem Valid.of_append {later : List (Entry σ κ)} (h : Valid (later ++ log)) : Valid log := by
  induction later with
  | nil => exact h
  | cons entry later ih => exact ih h.tail

/-- A code that was spent and is left was issued since. -/
theorem issued_since {later earlier : List (Entry σ κ)}
    (h : code ∈ codesOf (later ++ .spend code :: earlier)) :
    ∃ codes, .switchOn codes ∈ later ∧ code ∈ codes := by
  induction later with
  | nil => exact absurd rfl h.2
  | cons entry later ih =>
    cases entry with
    | setUp secret =>
      obtain ⟨codes, hmem, hcode⟩ := ih h
      exact ⟨codes, List.mem_cons_of_mem _ hmem, hcode⟩
    | switchOn codes => exact ⟨codes, List.mem_cons_self, h⟩
    | spend other =>
      obtain ⟨codes, hmem, hcode⟩ := ih h.1
      exact ⟨codes, List.mem_cons_of_mem _ hmem, hcode⟩
    | switchOff => exact absurd h (Set.notMem_empty code)

/-- **Once for each issue.**  A code that is spent twice was issued in between. -/
theorem Valid.issued_again {later middle earlier : List (Entry σ κ)}
    (h : Valid (later ++ .spend code :: (middle ++ .spend code :: earlier))) :
    ∃ codes, .switchOn codes ∈ middle ∧ code ∈ codes :=
  issued_since h.of_append.1

end Laws

end Enrolment
