import Mathlib

/-!
# Documents and their redaction

A document is a scalar, a list of documents, or a dictionary.  Redaction puts one
document in the place of every value whose key is sensitive, at any depth.

* `Doc.Agree` — two documents that differ at most under sensitive keys;
* `Doc.redact_eq_iff` — those are the ones with the same redaction: it tells nothing of
  what is under a sensitive key, and everything else;
* `Doc.redact_redact` — redacting again changes nothing.
-/

/-- A document with keys `κ` and scalars `σ`. -/
inductive Doc (κ σ : Type*)
  | scalar (value : σ)
  | list (items : List (Doc κ σ))
  | dict (items : List (κ × Doc κ σ))

namespace Doc

variable {κ σ : Type*} (sensitive : κ → Prop) [DecidablePred sensitive] (replacement : Doc κ σ)

mutual

/-- The redaction of a document. -/
def redact : Doc κ σ → Doc κ σ
  | .scalar value => .scalar value
  | .list items => .list (redactItems items)
  | .dict items => .dict (redactEntries items)

def redactItems : List (Doc κ σ) → List (Doc κ σ)
  | [] => []
  | x :: items => redact x :: redactItems items

def redactEntries : List (κ × Doc κ σ) → List (κ × Doc κ σ)
  | [] => []
  | (k, x) :: items => (k, if sensitive k then replacement else redact x) :: redactEntries items

end

mutual

/-- Two documents that are the same but for what is under sensitive keys. -/
inductive Agree : Doc κ σ → Doc κ σ → Prop
  | scalar (value : σ) : Agree (.scalar value) (.scalar value)
  | list {items items' : List (Doc κ σ)} :
      AgreeItems items items' → Agree (.list items) (.list items')
  | dict {items items' : List (κ × Doc κ σ)} :
      AgreeEntries items items' → Agree (.dict items) (.dict items')

inductive AgreeItems : List (Doc κ σ) → List (Doc κ σ) → Prop
  | nil : AgreeItems [] []
  | cons {x x' : Doc κ σ} {items items' : List (Doc κ σ)} :
      Agree x x' → AgreeItems items items' → AgreeItems (x :: items) (x' :: items')

inductive AgreeEntries : List (κ × Doc κ σ) → List (κ × Doc κ σ) → Prop
  | nil : AgreeEntries [] []
  | hidden {k : κ} {x x' : Doc κ σ} {items items' : List (κ × Doc κ σ)} :
      sensitive k → AgreeEntries items items' → AgreeEntries ((k, x) :: items) ((k, x') :: items')
  | shown {k : κ} {x x' : Doc κ σ} {items items' : List (κ × Doc κ σ)} :
      ¬ sensitive k → Agree x x' → AgreeEntries items items' →
        AgreeEntries ((k, x) :: items) ((k, x') :: items')

end

mutual

theorem agree_of_redact_eq : ∀ {x y : Doc κ σ},
    redact sensitive replacement x = redact sensitive replacement y → Agree sensitive x y
  | .scalar a, .scalar b, h => by
    simp only [redact, scalar.injEq] at h
    rw [h]
    exact .scalar b
  | .list xs, .list ys, h => by
    simp only [redact, list.injEq] at h
    exact .list (agreeItems_of_redact_eq h)
  | .dict xs, .dict ys, h => by
    simp only [redact, dict.injEq] at h
    exact .dict (agreeEntries_of_redact_eq h)
  | .scalar _, .list _, h => by simp [redact] at h
  | .scalar _, .dict _, h => by simp [redact] at h
  | .list _, .scalar _, h => by simp [redact] at h
  | .list _, .dict _, h => by simp [redact] at h
  | .dict _, .scalar _, h => by simp [redact] at h
  | .dict _, .list _, h => by simp [redact] at h

theorem agreeItems_of_redact_eq : ∀ {xs ys : List (Doc κ σ)},
    redactItems sensitive replacement xs = redactItems sensitive replacement ys →
      AgreeItems sensitive xs ys
  | [], [], _ => .nil
  | x :: xs, y :: ys, h => by
    simp only [redactItems, List.cons.injEq] at h
    exact .cons (agree_of_redact_eq h.1) (agreeItems_of_redact_eq h.2)
  | [], _ :: _, h => by simp [redactItems] at h
  | _ :: _, [], h => by simp [redactItems] at h

theorem agreeEntries_of_redact_eq : ∀ {xs ys : List (κ × Doc κ σ)},
    redactEntries sensitive replacement xs = redactEntries sensitive replacement ys →
      AgreeEntries sensitive xs ys
  | [], [], _ => .nil
  | (k, x) :: xs, (k', y) :: ys, h => by
    simp only [redactEntries, List.cons.injEq, Prod.mk.injEq] at h
    obtain ⟨⟨rfl, hvalue⟩, hrest⟩ := h
    by_cases hk : sensitive k
    · exact .hidden hk (agreeEntries_of_redact_eq hrest)
    · rw [if_neg hk, if_neg hk] at hvalue
      exact .shown hk (agree_of_redact_eq hvalue) (agreeEntries_of_redact_eq hrest)
  | [], _ :: _, h => by simp [redactEntries] at h
  | _ :: _, [], h => by simp [redactEntries] at h

end

variable {sensitive}

mutual

theorem Agree.redact_eq : ∀ {x y : Doc κ σ}, Agree sensitive x y →
    redact sensitive replacement x = redact sensitive replacement y
  | _, _, .scalar value => rfl
  | _, _, .list h => by rw [redact, redact, h.redact_eq]
  | _, _, .dict h => by rw [redact, redact, h.redact_eq]

theorem AgreeItems.redact_eq : ∀ {xs ys : List (Doc κ σ)}, AgreeItems sensitive xs ys →
    redactItems sensitive replacement xs = redactItems sensitive replacement ys
  | _, _, .nil => rfl
  | _, _, .cons h hrest => by rw [redactItems, redactItems, h.redact_eq, hrest.redact_eq]

theorem AgreeEntries.redact_eq : ∀ {xs ys : List (κ × Doc κ σ)}, AgreeEntries sensitive xs ys →
    redactEntries sensitive replacement xs = redactEntries sensitive replacement ys
  | _, _, .nil => rfl
  | _, _, .hidden hk hrest => by
    rw [redactEntries, redactEntries, if_pos hk, if_pos hk, hrest.redact_eq]
  | _, _, .shown hk h hrest => by
    rw [redactEntries, redactEntries, if_neg hk, if_neg hk, h.redact_eq, hrest.redact_eq]

end

/-- **What a redaction tells**: two documents have the same one exactly when they agree. -/
theorem redact_eq_iff {x y : Doc κ σ} :
    redact sensitive replacement x = redact sensitive replacement y ↔ Agree sensitive x y :=
  ⟨agree_of_redact_eq sensitive replacement, fun h => h.redact_eq replacement⟩

mutual

theorem agree_redact : ∀ x : Doc κ σ, Agree sensitive (redact sensitive replacement x) x
  | .scalar value => .scalar value
  | .list items => .list (agreeItems_redact items)
  | .dict items => .dict (agreeEntries_redact items)

theorem agreeItems_redact : ∀ xs : List (Doc κ σ),
    AgreeItems sensitive (redactItems sensitive replacement xs) xs
  | [] => .nil
  | x :: xs => .cons (agree_redact x) (agreeItems_redact xs)

theorem agreeEntries_redact : ∀ xs : List (κ × Doc κ σ),
    AgreeEntries sensitive (redactEntries sensitive replacement xs) xs
  | [] => .nil
  | (k, x) :: xs => by
    rw [redactEntries]
    by_cases hk : sensitive k
    · exact .hidden hk (agreeEntries_redact xs)
    · rw [if_neg hk]
      exact .shown hk (agree_redact x) (agreeEntries_redact xs)

end

/-- Redacting again changes nothing. -/
theorem redact_redact (x : Doc κ σ) :
    redact sensitive replacement (redact sensitive replacement x) =
      redact sensitive replacement x :=
  (redact_eq_iff replacement).2 (agree_redact replacement x)

end Doc
