import Mathlib

/-!
# A holding at average cost

A `Holding` has a signed quantity, the average price of what is held and the
gain already taken.  `trade` books one trade of a signed quantity at a price:
it opens or adds at the weighted mean, or else closes against the average, and
what goes past flat is held at the price of the trade.

Over any ordered field:

* `balance_ofTrades` — cash is conserved: the gain taken less the cost of what
  is held is minus the sum of quantity times price;
* `average_eq_zero_iff` — for positive prices the average is zero exactly when
  nothing is held;
* `average_mem_openPrices` — the average lies between two prices paid since the
  holding was last flat or changed sides.
-/

variable {K : Type*}

/-- What is held, at which average price, and the gain taken so far. -/
@[ext]
structure Holding (K : Type*) where
  quantity : K
  average : K
  realized : K

namespace Holding

section

variable [Field K] [LinearOrder K]

/-- Nothing held, nothing gained. -/
def flat : Holding K := ⟨0, 0, 0⟩

/-- Book a trade of a signed quantity at a price. -/
def trade (h : Holding K) (signed price : K) : Holding K :=
  if h.quantity = 0 ∨ 0 < h.quantity * signed then
    { h with
      quantity := h.quantity + signed
      average := (h.average * |h.quantity| + price * |signed|) / |h.quantity + signed| }
  else
    { quantity := h.quantity + signed
      average := if h.quantity + signed = 0 then 0
        else if h.quantity * (h.quantity + signed) < 0 then price else h.average
      realized := h.realized +
        min |h.quantity| |signed| * (price - h.average) * (if 0 < h.quantity then 1 else -1) }

theorem trade_of_open {h : Holding K} {signed : K} (price : K)
    (hopen : h.quantity = 0 ∨ 0 < h.quantity * signed) :
    h.trade signed price =
      ⟨h.quantity + signed,
        (h.average * |h.quantity| + price * |signed|) / |h.quantity + signed|, h.realized⟩ :=
  if_pos hopen

theorem trade_of_close {h : Holding K} {signed : K} (price : K)
    (hclose : ¬ (h.quantity = 0 ∨ 0 < h.quantity * signed)) :
    h.trade signed price =
      ⟨h.quantity + signed,
        if h.quantity + signed = 0 then 0
          else if h.quantity * (h.quantity + signed) < 0 then price else h.average,
        h.realized +
          min |h.quantity| |signed| * (price - h.average) * (if 0 < h.quantity then 1 else -1)⟩ :=
  if_neg hclose

@[simp] theorem trade_quantity (h : Holding K) (signed price : K) :
    (h.trade signed price).quantity = h.quantity + signed := by
  unfold trade; split <;> rfl

/-- The holding after a list of trades, each a signed quantity and a price. -/
def ofTrades (trades : List (K × K)) : Holding K :=
  trades.foldl (fun h t => h.trade t.1 t.2) flat

@[simp] theorem ofTrades_nil : ofTrades ([] : List (K × K)) = flat := rfl

theorem ofTrades_append_singleton (trades : List (K × K)) (t : K × K) :
    ofTrades (trades ++ [t]) = (ofTrades trades).trade t.1 t.2 := by
  rw [ofTrades, List.foldl_append]; rfl

theorem quantity_ofTrades (trades : List (K × K)) :
    (ofTrades trades).quantity = (trades.map Prod.fst).sum := by
  induction trades using List.reverseRecOn with
  | nil => rfl
  | append_singleton ts t ih => simp [ofTrades_append_singleton, ih]

end

variable [Field K] [LinearOrder K] [IsStrictOrderedRing K]

/-! ## How a trade meets the holding -/

/-- The ways a trade can meet a holding: it opens or adds, closes a part,
closes all of it, or turns it over. -/
theorem trade_cases (h : Holding K) (signed price : K) :
    (h.quantity = 0 ∨ 0 < h.quantity * signed) ∧
      h.trade signed price =
        ⟨h.quantity + signed,
          (h.average * |h.quantity| + price * |signed|) / |h.quantity + signed|, h.realized⟩ ∨
    (h.quantity ≠ 0 ∧ 0 < h.quantity * (h.quantity + signed) ∧ h.quantity * signed ≤ 0) ∧
      h.trade signed price =
        ⟨h.quantity + signed, h.average, h.realized - signed * (price - h.average)⟩ ∨
    (h.quantity ≠ 0 ∧ h.quantity + signed = 0) ∧
      h.trade signed price = ⟨0, 0, h.realized + h.quantity * (price - h.average)⟩ ∨
    (h.quantity ≠ 0 ∧ h.quantity * (h.quantity + signed) < 0) ∧
      h.trade signed price =
        ⟨h.quantity + signed, price, h.realized + h.quantity * (price - h.average)⟩ := by
  obtain ⟨q, a, r⟩ := h
  by_cases hopen : q = 0 ∨ 0 < q * signed
  · exact Or.inl ⟨hopen, trade_of_open price hopen⟩
  obtain ⟨hq, hs⟩ := not_or.1 hopen
  rw [trade_of_close price hopen]
  dsimp only
  have hs' : q * signed ≤ 0 := not_lt.1 hs
  rcases lt_trichotomy (q * (q + signed)) 0 with hneg | hzero | hpos
  · refine Or.inr (Or.inr (Or.inr ⟨⟨hq, hneg⟩, ?_⟩))
    have hne : q + signed ≠ 0 := fun h => by rw [h, mul_zero] at hneg; exact lt_irrefl _ hneg
    rw [if_neg hne, if_pos hneg]
    have hmin : min |q| |signed| * (if 0 < q then (1 : K) else -1) = q := by
      rcases lt_or_gt_of_ne hq with hq | hq
      · have : 0 < signed + q := by nlinarith
        rw [if_neg hq.le.not_gt, abs_of_neg hq, abs_of_pos (by linarith), min_eq_left (by linarith)]
        ring
      · have : signed + q < 0 := by nlinarith
        rw [if_pos hq, abs_of_pos hq, abs_of_neg (by linarith), min_eq_left (by linarith)]
        ring
    ext <;> simp only
    rw [mul_right_comm, hmin]
  · have hsum : q + signed = 0 := (mul_eq_zero.1 hzero).resolve_left hq
    refine Or.inr (Or.inr (Or.inl ⟨⟨hq, hsum⟩, ?_⟩))
    have hmin : min |q| |signed| * (if 0 < q then (1 : K) else -1) = q := by
      have : signed = -q := by linarith
      rw [this, abs_neg, min_self]
      rcases lt_or_gt_of_ne hq with hq | hq
      · rw [if_neg hq.le.not_gt, abs_of_neg hq]; ring
      · rw [if_pos hq, abs_of_pos hq]; ring
    rw [if_pos hsum]
    ext <;> simp only
    · exact hsum
    · rw [mul_right_comm, hmin]
  · refine Or.inr (Or.inl ⟨⟨hq, hpos, hs'⟩, ?_⟩)
    have hne : q + signed ≠ 0 := fun h => by rw [h, mul_zero] at hpos; exact lt_irrefl _ hpos
    rw [if_neg hne, if_neg hpos.not_gt]
    have hmin : min |q| |signed| * (if 0 < q then (1 : K) else -1) = -signed := by
      rcases lt_or_gt_of_ne hq with hq | hq
      · have h1 : q + signed < 0 := by nlinarith
        have h2 : 0 ≤ signed := by nlinarith
        rw [if_neg hq.le.not_gt, abs_of_neg hq, abs_of_nonneg h2, min_eq_right (by linarith)]
        ring
      · have h1 : 0 < q + signed := by nlinarith
        have h2 : signed ≤ 0 := by nlinarith
        rw [if_pos hq, abs_of_pos hq, abs_of_nonpos h2, min_eq_right (by linarith)]
        ring
    ext <;> simp only
    rw [mul_right_comm, hmin]
    ring

/-- In the opening branch the sizes add up. -/
theorem abs_add_of_open {q s : K} (h : q = 0 ∨ 0 < q * s) : |q + s| = |q| + |s| := by
  rcases h with rfl | h
  · simp
  · exact abs_add_eq_add_abs_iff q s |>.2 ((mul_nonneg_iff.1 h.le).imp id id)

/-! ## Conservation of cash -/

/-- The gain taken less the cost of what is held. -/
def balance (h : Holding K) : K := h.realized - h.quantity * h.average

theorem balance_trade (h : Holding K) (signed price : K) :
    (h.trade signed price).balance = h.balance - signed * price := by
  rcases trade_cases h signed price with ⟨hc, e⟩ | ⟨-, e⟩ | ⟨⟨-, hz⟩, e⟩ | ⟨-, e⟩ <;>
    rw [e] <;> simp only [balance]
  · -- opening: the new cost is the old one and the price paid, with one sign
    have habs := abs_add_of_open hc
    by_cases hn : h.quantity + signed = 0
    · have hzero : |h.quantity| + |signed| = 0 := by rw [← habs, hn, abs_zero]
      have hq : h.quantity = 0 := abs_eq_zero.1 (by linarith [abs_nonneg h.quantity, abs_nonneg signed])
      have hs : signed = 0 := by rwa [hq, zero_add] at hn
      rw [hq, hs]; ring
    · have hpos : |h.quantity + signed| ≠ 0 := abs_ne_zero.2 hn
      have hcost : (h.quantity + signed) *
          ((h.average * |h.quantity| + price * |signed|) / |h.quantity + signed|) =
            h.quantity * h.average + signed * price := by
        rcases hc with hq | hqs
        · rw [hq] at hpos ⊢
          rw [zero_add] at hpos ⊢
          field_simp
          ring
        · rcases pos_and_pos_or_neg_and_neg_of_mul_pos hqs with ⟨hq, hs⟩ | ⟨hq, hs⟩
          · rw [abs_of_pos hq, abs_of_pos hs, abs_of_pos (add_pos hq hs)]
            have := (add_pos hq hs).ne'
            field_simp
          · rw [abs_of_neg hq, abs_of_neg hs, abs_of_neg (add_neg hq hs)]
            have := (add_neg hq hs).ne
            field_simp
            ring
      rw [hcost]; ring
  · ring
  · have : signed = -h.quantity := by linarith
    rw [this]; ring
  · ring

/-- **Cash is conserved.** -/
theorem balance_ofTrades (trades : List (K × K)) :
    (ofTrades trades).balance = -(trades.map fun t => t.1 * t.2).sum := by
  induction trades using List.reverseRecOn with
  | nil => simp [balance, flat]
  | append_singleton ts t ih =>
    rw [ofTrades_append_singleton, balance_trade, ih]
    simp only [List.map_append, List.map_cons, List.map_nil, List.sum_append, List.sum_cons,
      List.sum_nil]
    ring

/-- Marking what is held at a price: the gain is that of every trade against
the mark. -/
theorem realized_add_mark (trades : List (K × K)) (mark : K) :
    (ofTrades trades).realized + (ofTrades trades).quantity * (mark - (ofTrades trades).average) =
      (trades.map fun t => t.1 * (mark - t.2)).sum := by
  have hbal := balance_ofTrades trades
  have hsum : (trades.map fun t => t.1 * (mark - t.2)).sum =
      (trades.map Prod.fst).sum * mark - (trades.map fun t => t.1 * t.2).sum := by
    induction trades with
    | nil => simp
    | cons t ts ih =>
      simp only [List.map_cons, List.sum_cons, ih (balance_ofTrades ts)]
      ring
  rw [hsum, ← quantity_ofTrades]
  unfold balance at hbal
  linear_combination hbal

/-! ## The average price -/

/-- For positive prices: flat exactly at average zero, and positive otherwise. -/
theorem average_trade_pos {h : Holding K} {signed price : K} (hprice : 0 < price)
    (h1 : h.quantity ≠ 0 → 0 < h.average) :
    ((h.trade signed price).quantity = 0 → (h.trade signed price).average = 0) ∧
      ((h.trade signed price).quantity ≠ 0 → 0 < (h.trade signed price).average) := by
  rcases trade_cases h signed price with
    ⟨hc, e⟩ | ⟨⟨hq, hpos, -⟩, e⟩ | ⟨⟨hq, hz⟩, e⟩ | ⟨⟨hq, hneg⟩, e⟩ <;>
    rw [e] <;> simp only
  · refine ⟨fun hz => by rw [hz, abs_zero, div_zero], fun hn => div_pos ?_ (abs_pos.2 hn)⟩
    by_cases hq : h.quantity = 0
    · rw [hq, zero_add] at hn
      rw [hq, abs_zero, mul_zero, zero_add]
      exact mul_pos hprice (abs_pos.2 hn)
    · have := mul_pos (h1 hq) (abs_pos.2 hq)
      have := mul_nonneg hprice.le (abs_nonneg signed)
      linarith
  · refine ⟨fun hz => ?_, fun _ => h1 hq⟩
    rw [hz, mul_zero] at hpos
    exact absurd hpos (lt_irrefl _)
  · exact ⟨fun _ => trivial, fun hn => absurd rfl hn⟩
  · refine ⟨fun hz => ?_, fun _ => hprice⟩
    rw [hz, mul_zero] at hneg
    exact absurd hneg (lt_irrefl _)

/-- **For positive prices the average is zero exactly when nothing is held.** -/
theorem average_eq_zero_iff {trades : List (K × K)} (hp : ∀ t ∈ trades, 0 < t.2) :
    (ofTrades trades).average = 0 ↔ (ofTrades trades).quantity = 0 := by
  have key : ((ofTrades trades).quantity = 0 → (ofTrades trades).average = 0) ∧
      ((ofTrades trades).quantity ≠ 0 → 0 < (ofTrades trades).average) := by
    induction trades using List.reverseRecOn with
    | nil => exact ⟨fun _ => rfl, fun h => absurd rfl h⟩
    | append_singleton ts t ih =>
      have ih := ih fun x hx => hp x (List.mem_append_left _ hx)
      rw [ofTrades_append_singleton]
      exact average_trade_pos (hp t (by simp)) ih.2
  exact ⟨fun h => by_contra fun hq => (key.2 hq).ne' h, key.1⟩

/-- The quantity held and the prices traded at since it was last zero or
changed sign, after one more trade. -/
def openStep (r : K × List K) (t : K × K) : K × List K :=
  let new := r.1 + t.1
  (new, if new = 0 then [] else if 0 < r.1 * new then r.2 ++ [t.2] else [t.2])

/-- The prices of the trades since the holding was last flat or changed sides. -/
def openPrices (trades : List (K × K)) : List K := (trades.foldl openStep (0, [])).2

omit [IsStrictOrderedRing K] in
theorem openStep_append_singleton (trades : List (K × K)) (t : K × K) :
    (trades ++ [t]).foldl openStep (0, []) = openStep (trades.foldl openStep (0, [])) t := by
  rw [List.foldl_append]; rfl

omit [IsStrictOrderedRing K] in
theorem openStep_fst (trades : List (K × K)) :
    (trades.foldl openStep (0, [])).1 = (ofTrades trades).quantity := by
  induction trades using List.reverseRecOn with
  | nil => rfl
  | append_singleton ts t ih =>
    rw [openStep_append_singleton, ofTrades_append_singleton, trade_quantity, ← ih]
    rfl

/-- A weighted mean of two numbers lies between bounds of both. -/
theorem weighted_mean_mem {a p lo hi v w : K} (hv : 0 ≤ v) (hw : 0 ≤ w) (hvw : 0 < v + w)
    (ha : 0 < v → lo ≤ a ∧ a ≤ hi) (hp : lo ≤ p ∧ p ≤ hi) :
    lo ≤ (a * v + p * w) / (v + w) ∧ (a * v + p * w) / (v + w) ≤ hi := by
  rw [le_div_iff₀ hvw, div_le_iff₀ hvw]
  rcases hv.eq_or_lt with hv0 | hv0
  · rw [← hv0]
    exact ⟨by nlinarith [hp.1], by nlinarith [hp.2]⟩
  · obtain ⟨h1, h2⟩ := ha hv0
    exact ⟨by nlinarith [hp.1], by nlinarith [hp.2]⟩

/-- **The average lies between two prices paid since the holding was last flat
or changed sides.** -/
theorem average_mem_openPrices (trades : List (K × K)) (hn : (ofTrades trades).quantity ≠ 0) :
    ∃ lo ∈ openPrices trades, ∃ hi ∈ openPrices trades,
      lo ≤ (ofTrades trades).average ∧ (ofTrades trades).average ≤ hi := by
  induction trades using List.reverseRecOn with
  | nil => exact absurd rfl hn
  | append_singleton ts t ih =>
    obtain ⟨s, p⟩ := t
    have hfst := openStep_fst ts
    rw [ofTrades_append_singleton] at hn ⊢
    rw [trade_quantity] at hn
    simp only [openPrices, openStep_append_singleton, openStep, hfst] at ih ⊢
    rw [if_neg hn]
    rcases trade_cases (ofTrades ts) s p with ⟨hc, e⟩ | ⟨⟨hq, hpos, -⟩, e⟩ | ⟨⟨-, hz⟩, e⟩ |
      ⟨⟨-, hneg⟩, e⟩
    · rw [e]
      simp only [abs_add_of_open hc]
      have habs : 0 < |(ofTrades ts).quantity| + |s| := by
        rw [← abs_add_of_open hc]; exact abs_pos.2 hn
      by_cases hq : (ofTrades ts).quantity = 0
      · -- the trade opens the holding: the average is its price
        rw [hq, zero_mul, if_neg (lt_irrefl _)]
        refine ⟨p, by simp, p, by simp, ?_⟩
        rw [hq] at habs
        exact weighted_mean_mem (abs_nonneg _) (abs_nonneg s) habs
          (fun h => absurd h (by simp)) ⟨le_refl p, le_refl p⟩
      · -- the trade adds to it: the average is a mean of the old one and the price
        obtain ⟨lo, hlo, hi, hhi, hle, hge⟩ := ih hq
        have hsame : 0 < (ofTrades ts).quantity * ((ofTrades ts).quantity + s) := by
          have h1 := mul_self_pos.2 hq
          have h2 := hc.resolve_left hq
          rw [mul_add]; linarith
        rw [if_pos hsame]
        have hmem : ∀ {x}, x ∈ (ts.foldl openStep (0, [])).2 →
            x ∈ (ts.foldl openStep (0, [])).2 ++ [p] := fun hx => List.mem_append_left _ hx
        refine ⟨min lo p, ?_, max hi p, ?_, weighted_mean_mem (abs_nonneg _) (abs_nonneg _) habs
          (fun _ => ⟨(min_le_left _ _).trans hle, hge.trans (le_max_left _ _)⟩)
          ⟨min_le_right _ _, le_max_right _ _⟩⟩
        · rcases min_choice lo p with h | h <;> rw [h]
          · exact hmem hlo
          · simp
        · rcases max_choice hi p with h | h <;> rw [h]
          · exact hmem hhi
          · simp
    · rw [e, if_pos hpos]
      obtain ⟨lo, hlo, hi, hhi, hb⟩ := ih hq
      exact ⟨lo, List.mem_append_left _ hlo, hi, List.mem_append_left _ hhi, hb⟩
    · exact absurd hz hn
    · rw [e, if_neg hneg.not_gt]
      exact ⟨p, by simp, p, by simp, le_refl p, le_refl p⟩

end Holding
